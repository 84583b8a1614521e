import Templating.Proofs.CallLog

/-!
What names mean in expressions. A closure holds the names that were in scope where its literal was
evaluated, and a call of it adds its own.
-/
namespace Templating

variable {ω : Type}

/-- A function is in a value, or in the names that a closure there holds. -/
inductive Value.Reaches (v : Value) : Function → Prop where
  | held {f : Function} (h : v.Holds f) : Reaches v f
  | scope {id : Nat} {params : List String} {body : Body} {env : Env} {m : String × Value}
    {f : Function} (h : Reaches v (.closure id params body env)) (hm : m ∈ env) (hf : m.2.Holds f) :
    Reaches v f

namespace CallHistory

instance : Preorder (CallHistory ω) where
  le h h' := h.instants <:+ h'.instants ∧ h.given <:+ h'.given
  le_refl h := ⟨List.suffix_rfl, List.suffix_rfl⟩
  le_trans _ _ _ h h' := ⟨h.1.trans h'.1, h.2.trans h'.2⟩

theorem le_note (i : CallInstant ω) (h : CallHistory ω) : h ≤ h.note i :=
  ⟨List.suffix_cons _ _, List.suffix_rfl⟩

theorem le_give (v : Value) (h : CallHistory ω) : h ≤ h.give v :=
  ⟨List.suffix_rfl, List.suffix_cons _ _⟩

def Given (h : CallHistory ω) (f : Function) : Prop := ∃ v ∈ h.given, v.Reaches f

def Captured (h : CallHistory ω) (f : Function) : Prop := ∃ i ∈ h.instants, i.event = .captured f

/-- Closures have been made or given. -/
def Known (h : CallHistory ω) (f : Function) : Prop :=
  ∀ id params body env, f = .closure id params body env → h.Captured f ∨ h.Given f

theorem Known.mono {h h' : CallHistory ω} (hle : h ≤ h') {f : Function} (hf : h.Known f) :
    h'.Known f := by
  intro id params body env heq
  rcases hf id params body env heq with ⟨i, hi, hevent⟩ | ⟨v, hv, hreaches⟩
  · exact .inl ⟨i, hle.1.subset hi, hevent⟩
  · exact .inr ⟨v, hle.2.subset hv, hreaches⟩

theorem known_given {h : CallHistory ω} {v : Value} (hv : v ∈ h.given) : v.Each h.Known :=
  fun _ hf _ _ _ _ _ => .inr ⟨v, hv, .held hf⟩

end CallHistory

open CallHistory

section Table

variable (table : ω → String → Option Value)

/-- What binds a name at an instant: the innermost call with all it has in scope, and outside calls
the table there. -/
def CallInstant.finds (i : CallInstant ω) (name : String) : Option Value :=
  match i.calls with
  | [] => table i.outside name
  | c :: _ => c.names.lookup name

/-- What is noted at an instant agrees with what there was before: names have the values that are
found, and closures hold what is in scope where they are made. -/
structure CallInstant.Agrees (i : CallInstant ω) (before : CallHistory ω) : Prop where
  looked : ∀ name v, i.event = .looked name v →
    v = ((i.finds table name).or (global? name)).getD .undefined
  captured : ∀ id params body env, i.event = .captured (.closure id params body env) →
    (∀ name, env.lookup name = i.finds table name) ∧ Members.Each before.Known env
  calls : ∀ c outer, i.calls = c :: outer → before.Known c.closure

theorem CallInstant.Agrees.mono {table : ω → String → Option Value} {i : CallInstant ω}
    {h h' : CallHistory ω} (hi : i.Agrees table h) (hle : h ≤ h') : i.Agrees table h' where
  looked := hi.looked
  captured id params body env hevent :=
    ⟨(hi.captured id params body env hevent).1,
      (hi.captured id params body env hevent).2.mono fun _ => Known.mono hle⟩
  calls c outer hcalls := (hi.calls c outer hcalls).mono hle

def AllAgree (given : List Value) : List (CallInstant ω) → Prop
  | [] => True
  | i :: before => i.Agrees table ⟨before, given⟩ ∧ AllAgree given before

def CallHistory.Sound (h : CallHistory ω) : Prop := AllAgree table h.given h.instants

end Table

variable {table : ω → String → Option Value}

theorem AllAgree.of_suffix {given : List Value} : ∀ {instants : List (CallInstant ω)}
    {i : CallInstant ω} {before : List (CallInstant ω)}, AllAgree table given instants →
    i :: before <:+ instants → i.Agrees table ⟨before, given⟩
  | [], i, before, _, h => by simp at h
  | j :: instants, i, before, hall, h => by
    rcases List.suffix_cons_iff.mp h with heq | h
    · obtain ⟨rfl, rfl⟩ := List.cons.inj heq
      exact hall.1
    · exact AllAgree.of_suffix hall.2 h

theorem AllAgree.suffix {given : List Value} : ∀ {instants older : List (CallInstant ω)},
    AllAgree table given instants → older <:+ instants → AllAgree table given older
  | [], older, _, h => by
    rw [List.suffix_nil.mp h]
    trivial
  | j :: instants, older, hall, h => by
    rcases List.suffix_cons_iff.mp h with rfl | h
    · exact hall
    · exact AllAgree.suffix hall.2 h

theorem AllAgree.mono {given given' : List Value} (hle : given <:+ given') :
    ∀ {instants : List (CallInstant ω)}, AllAgree table given instants →
      AllAgree table given' instants
  | [], _ => trivial
  | _ :: _, hall => ⟨hall.1.mono ⟨List.suffix_rfl, hle⟩, AllAgree.mono hle hall.2⟩

/-- What a known closure holds is known. -/
theorem CallHistory.Sound.scope {h : CallHistory ω} (hsound : h.Sound table) {id : Nat}
    {params : List String} {body : Body} {env : Env} (hf : h.Known (.closure id params body env)) :
    Members.Each h.Known env := by
  rcases hf id params body env rfl with ⟨i, hi, hevent⟩ | ⟨v, hv, hreaches⟩
  · obtain ⟨newer, older, hsplit⟩ := List.append_of_mem hi
    have hsuffix : i :: older <:+ h.instants := ⟨newer, hsplit.symm⟩
    have hbefore : (⟨older, h.given⟩ : CallHistory ω) ≤ h :=
      ⟨(List.suffix_cons i older).trans hsuffix, List.suffix_rfl⟩
    refine ((hsound.of_suffix hsuffix).captured id params body env hevent).2.mono fun f => ?_
    exact Known.mono hbefore
  · exact fun m hm f hf _ _ _ _ _ => .inr ⟨v, hv, .scope hreaches hm hf⟩

section Naming

open CallLog EvalM EvalInvariant

/-- The names bound where an evaluation is: those of the table outside all calls, and those of the
innermost call otherwise, which may declare more. -/
def Stands (table : ω → String → Option Value) (outside : ω) :
    Option (CallFrame × List CallFrame) → Env → List CallFrame → Prop
  | none, env, calls => calls = [] ∧ ∀ name, env.lookup name = table outside name
  | some (c, outer), env, calls =>
    ∃ declared, calls = { c with declared } :: outer ∧ env = { c with declared }.names

/-- The log of an evaluation that is outside all calls or inside the given one. -/
structure Names (table : ω → String → Option Value) (base : ω)
    (place : Option (CallFrame × List CallFrame)) (w : CallHistory ω) (env : Env)
    (t : EvalState (CallLog ω)) : Prop where
  outside : t.store.outside = base
  history : t.store.history = w
  sound : w.Sound table
  stands : Stands table base place env t.store.calls
  known : ∀ c outer, place = some (c, outer) → w.Known c.closure

variable {base : ω} {place : Option (CallFrame × List CallFrame)} {w : CallHistory ω} {env : Env}
  {t : EvalState (CallLog ω)}

namespace Names

/-- The names bound are those that an instant finds. -/
theorem lookup_eq (h : Names table base place w env t) (event : CallEvent) (name : String) :
    env.lookup name = (instant t event).finds table name := by
  obtain ⟨houtside, -, -, hstands, -⟩ := h
  cases place with
  | none =>
    obtain ⟨hcalls, htable⟩ := hstands
    simp only [CallInstant.finds, instant, hcalls, houtside, htable]
  | some frame =>
    obtain ⟨declared, hcalls, rfl⟩ := hstands
    simp only [CallInstant.finds, instant, hcalls]

theorem known_call (h : Names table base place w env t) {c : CallFrame} {outer : List CallFrame}
    (hcalls : t.store.calls = c :: outer) : w.Known c.closure := by
  obtain ⟨-, -, -, hstands, hknown⟩ := h
  cases place with
  | none => simp [hstands.1] at hcalls
  | some frame =>
    obtain ⟨declared, hcalls', -⟩ := hstands
    obtain ⟨rfl, -⟩ := List.cons.inj (hcalls'.symm.trans hcalls)
    exact hknown frame.1 frame.2 rfl

theorem note (h : Names table base place w env t) (event : CallEvent)
    (hlooked : ∀ name v, event = .looked name v → v = env.value name)
    (hcaptured : ∀ id params body scope, event = .captured (.closure id params body scope) →
      scope = env ∧ Members.Each w.Known env) :
    Names table base place (w.note (instant t event)) env (CallLog.note event t) where
  outside := h.outside
  history := congrArg (CallHistory.note _) h.history
  sound := by
    refine ⟨⟨fun name v hevent => ?_, fun id params body scope hevent => ?_,
      fun c outer hcalls => h.known_call hcalls⟩, h.sound⟩
    · rw [← h.lookup_eq, hlooked name v hevent]
      rfl
    · obtain ⟨rfl, hscope⟩ := hcaptured id params body scope hevent
      exact ⟨h.lookup_eq event, hscope⟩
  stands := h.stands
  known c outer hplace := (h.known c outer hplace).mono (le_note _ w)

theorem give (h : Names table base place w env t) (v : Value) :
    Names table base place (w.give v) env (CallLog.give v t) where
  outside := h.outside
  history := congrArg (CallHistory.give v) h.history
  sound := h.sound.mono (List.suffix_cons v _)
  stands := h.stands
  known c outer hplace := (h.known c outer hplace).mono (le_give v w)

theorem enter (h : Names table base place w env t) {c : CallFrame} (hc : w.Known c.closure)
    (depth : Nat) : ∃ w', w ≤ w' ∧
      Names table base (some (c, t.store.calls)) w' c.names (CallLog.enter c { t with depth }) := by
  have hinside : Names table base (some (c, t.store.calls)) w c.names
      { t with depth, store.calls := c :: t.store.calls } := by
    refine ⟨h.outside, h.history, h.sound, ⟨c.declared, rfl, rfl⟩, ?_⟩
    rintro _ _ ⟨⟩
    exact hc
  exact ⟨_, le_note _ w, hinside.note .entered nofun nofun⟩

/-- After a call everything is as it was when the call began. -/
theorem leave (h : Names table base place w env t) {c : CallFrame} {w' : CallHistory ω}
    {env' : Env} {t' : EvalState (CallLog ω)}
    (hinside : Names table base (some (c, t.store.calls)) w' env' t') (hle : w ≤ w')
    (result : Except EvalError Value) (depth : Nat) :
    ∃ w'', w' ≤ w'' ∧ Names table base place w'' env { CallLog.leave result t' with depth } := by
  have hleft := hinside.note (.left result) nofun nofun
  refine ⟨_, le_note _ w', hleft.outside, hleft.history, hleft.sound, ?_, fun c' outer hplace => ?_⟩
  · obtain ⟨declared, hcalls, -⟩ := hleft.stands
    have htail : t'.store.calls.tail = t.store.calls := congrArg List.tail hcalls
    change Stands table base place env t'.store.calls.tail
    rw [htail]
    exact h.stands
  · exact (h.known c' outer hplace).mono (hle.trans (le_note _ w'))

end Names

/-- An evaluation beside its log, with all names bound to values whose closures are known. -/
structure NamesBeside (table : ω → String → Option Value) (base : ω)
    (place : Option (CallFrame × List CallFrame)) (w : CallHistory ω) (env : Env)
    (s : EvalState Unit) (t : EvalState (CallLog ω)) : Prop where
  identity : s.identity = t.identity
  depth : s.depth = t.depth
  bound : Members.Each w.Known env
  names : Names table base place w env t

def naming (table : ω → String → Option Value) (base : ω)
    (place : Option (CallFrame × List CallFrame)) :
    EvalInvariant (CallHistory ω) Unit (CallLog ω) where
  Known := Known
  Holds := NamesBeside table base place
  Fails w _ _ t := ∃ w' env, w ≤ w' ∧ Names table base place w' env t
  known_mono hle _ := Known.mono hle
  known_builtin _ _ := nofun
  fails_anti hle := fun ⟨w', env, hle', hnames⟩ => ⟨w', env, hle.trans hle', hnames⟩
  throw h _ := ⟨_, _, le_rfl, h.names⟩
  identity h := h.identity
  fresh h :=
    { h with
      identity := congrArg (· + 1) h.identity
      names := { h.names with } }

variable {host : HostFunctions} {s : EvalState Unit}

theorem NamesBeside.note (h : NamesBeside table base place w env s t) (event : CallEvent)
    (hlooked : ∀ name v, event = .looked name v → v = env.value name)
    (hcaptured : ∀ id params body scope, event = .captured (.closure id params body scope) →
      scope = env ∧ Members.Each w.Known env) :
    NamesBeside table base place (w.note (instant t event)) env s (CallLog.note event t) :=
  ⟨h.identity, h.depth, h.bound.mono fun _ => Known.mono (le_note _ w),
    h.names.note event hlooked hcaptured⟩

theorem noting_names {call : Caller Unit} {call' : Caller (CallLog ω)}
    (h : Caller.Related (naming table base place) call call') :
    Evaluator.Related (naming table base place) (.calling call) (.noting call') where
  call := h
  lookup w env name := by
    intro s t hst
    have hnoted := hst.note (.looked name (env.value name))
      (by rintro _ _ ⟨⟩; rfl) (by rintro _ _ _ _ ⟨⟩)
    exact .ok (le_note _ w) hnoted (Env.each_value hnoted.bound (fun _ => nofun) name)
  capture w env params body := by
    refine Relates.fresh.bind fun w' _ id _ => ?_
    intro s t hst
    have hnoted := hst.note (.captured (.closure id params body env))
      (by rintro _ _ ⟨⟩) (by rintro _ _ _ _ ⟨⟩; exact ⟨rfl, hst.bound⟩)
    refine .ok (le_note _ w') hnoted (Value.each_function ?_)
    exact fun _ _ _ _ _ => .inl ⟨_, List.mem_cons_self, rfl⟩

theorem noting_binds {c : CallFrame} {outer : List CallFrame} {call : Caller Unit}
    {call' : Caller (CallLog ω)}
    (h : Caller.Related (naming table base (some (c, outer))) call call') :
    Evaluator.BindsRelated (naming table base (some (c, outer))) (.calling call)
      (.noting call') where
  toRelated := noting_names h
  bind w env name v hv := by
    rintro _ t ⟨hidentity, hdepth, hbound, hnames⟩
    obtain ⟨declared, hcalls, rfl⟩ := hnames.stands
    refine .ok le_rfl ⟨hidentity, hdepth, Members.each_cons hv hbound, ?_⟩ rfl
    refine { hnames with stands := ⟨(name, v) :: declared, ?_, rfl⟩ }
    exact congrArg (List.modifyHead (·.declare name v)) hcalls

/-- The body of a closure, one call deeper. -/
theorem deeper_names {x : EvalM Unit Value} {y : EvalM (CallLog ω) Value} {c : CallFrame}
    (hxy : ∀ w', w ≤ w' → Ends (naming table base (some (c, t.store.calls))) w' c.names
      (naming table base (some (c, t.store.calls))).Good x y)
    (hst : NamesBeside table base place w env s t) (hc : w.Known c.closure)
    (hbound : Members.Each w.Known c.names) :
    Settled (naming table base place) w (fun w' => NamesBeside table base place w' env)
      (naming table base place).Good ((EvalM.deeper x).run.run s)
      ((EvalM.deeper (inCall c y)).run.run t) := by
  obtain ⟨hidentity, hdepth, henv, hnames⟩ := hst
  by_cases hlimit : s.depth < maxCallDepth
  · rw [run_deeper_of_lt hlimit, run_deeper_of_lt (hdepth ▸ hlimit)]
    dsimp only [run_inCall]
    obtain ⟨w₁, hw₁, hentered⟩ := hnames.enter hc (t.depth + 1)
    have hbody := hxy w₁ hw₁ (s := { s with depth := s.depth + 1 })
      (t := enter c { t with depth := t.depth + 1 })
      ⟨hidentity, congrArg (· + 1) hdepth, hbound.mono fun _ => Known.mono hw₁, hentered⟩
    rcases hx : x.run.run { s with depth := s.depth + 1 } with ⟨outcome, s'⟩
    rcases hy : y.run.run (enter c { t with depth := t.depth + 1 }) with ⟨outcome', t'⟩
    rw [hx, hy] at hbody
    cases hbody with
    | ok hw h ha =>
      obtain ⟨env', hidentity', hdepth', -, hinside⟩ := h
      obtain ⟨w₃, hw₃, hleft⟩ := hnames.leave hinside (hw₁.trans hw) (.ok _) (t'.depth - 1)
      have hle := (hw₁.trans hw).trans hw₃
      exact .ok hle ⟨hidentity', congrArg (· - 1) hdepth', henv.mono fun _ => Known.mono hle, hleft⟩
        (ha.mono hw₃)
    | error h =>
      obtain ⟨w₂, env', hw, hinside⟩ := h
      obtain ⟨w₃, hw₃, hleft⟩ := hnames.leave hinside (hw₁.trans hw) (.error _) (t'.depth - 1)
      exact .error ⟨w₃, env, (hw₁.trans hw).trans hw₃, hleft⟩
  · rw [run_deeper_of_le (Nat.not_lt.mp hlimit), run_deeper_of_le (hdepth ▸ Nat.not_lt.mp hlimit)]
    exact .error ⟨w, env, le_rfl, hnames⟩

theorem call_names (host : HostFunctions) : ∀ (room : Nat)
    (place : Option (CallFrame × List CallFrame)), Caller.Related (naming table base place)
      (callWith host room) (notingCall (fun _ _ => throw (.callDepth maxCallDepth)) host room)
  | 0, _ => by
    intro w env f args _ _ s t hst
    exact .error ⟨w, env, le_rfl, hst.names⟩
  | room + 1, place => by
    intro w env f args hf hargs s t hst
    have hasked := hst.note (.asked f args) nofun nofun
    cases f with
    | builtin f =>
      have hrun := Builtin.run_relates f (AllGood.mono hargs (le_note _ w)) hasked
      exact hrun.weaken (le_note _ w) (fun _ _ _ h => h) fun _ _ h => h
    | host id name =>
      change Settled _ _ _ _ (host name args, s) _
      cases hresult : host name args with
      | ok v =>
        rw [run_host_ok hresult]
        have hgiven := le_give v (w.note (instant t (.asked (.host id name) args)))
        refine .ok ((le_note _ w).trans hgiven) ⟨hasked.identity, hasked.depth, ?_,
          hasked.names.give v⟩ (known_given List.mem_cons_self)
        exact hasked.bound.mono fun _ => Known.mono hgiven
      | error e =>
        rw [run_host_error hresult]
        exact .error ⟨_, env, le_note _ w, hasked.names⟩
    | closure id params body scope =>
      have hknown :=
        Known.mono (le_note (instant t (.asked (.closure id params body scope) args)) w) hf
      have hdeeper := deeper_names (c := { id, params, body, scope, args })
        (fun w' _ => Body.eval_ends (noting_binds (call_names host room _)) w' _ body) hasked hknown
        (each_bindParams (hasked.names.sound.scope hknown) (AllGood.mono hargs (le_note _ w))
          params)
      exact hdeeper.weaken (le_note _ w) (fun _ _ _ h => h) fun _ _ h => h

/-- An evaluation with a log comes to what it comes to without, and the log agrees with itself. -/
theorem evaluateNoting_names (host : HostFunctions) (e : Expr) (identity : Nat)
    (hsound : w.Sound table) (hbound : Members.Each w.Known env)
    (htable : ∀ name, env.lookup name = table base name) :
    let (outcome, s) := e.evaluateNoting host base w env identity
    e.evaluate host env identity = outcome.map (fun v => (v, s.identity)) ∧
      w ≤ s.store.history ∧ s.store.history.Sound table ∧
      ∀ v, outcome = .ok v → v.Each s.store.history.Known := by
  have hnoting : Evaluator.Related (naming table base none)
      (.calling (callWith host (maxCallDepth + 1)))
      (.noting (notingCall (fun _ _ => throw (.callDepth maxCallDepth)) host (maxCallDepth + 1))) :=
    noting_names (call_names host (maxCallDepth + 1) none)
  have hrun := Expr.eval_relates hnoting w env e
    (s := { identity, store := () }) (t := { identity, store := { outside := base, history := w } })
    ⟨rfl, rfl, hbound, rfl, rfl, hsound, ⟨rfl, htable⟩, nofun⟩
  dsimp only [Expr.evaluate, Expr.evaluateNoting]
  generalize (e.eval (.calling _) env).run.run _ = x at hrun ⊢
  generalize (e.eval (.noting _) env).run.run _ = y at hrun ⊢
  cases hrun with
  | ok hw h ha =>
    obtain ⟨hidentity, -, -, hnames⟩ := h
    obtain rfl := hnames.history
    refine ⟨congrArg (fun n => Except.ok (_, n)) hidentity, hw, hnames.sound, ?_⟩
    rintro _ ⟨⟩
    exact ha
  | error h =>
    obtain ⟨w', env', hw, hnames⟩ := h
    obtain rfl := hnames.history
    exact ⟨rfl, hw, hnames.sound, nofun⟩

end Naming

/-- What binds a name at the first instant of a history. Outside calls it is the table there. In a
call it is the call itself if that binds the name, else what bound it when the literal of the
closure was evaluated; only a closure that the host has given holds names of its own. -/
inductive Means (table : ω → String → Option Value) (given : List Value) (name : String) :
    List (CallInstant ω) → Option Value → Prop
  | outside {i : CallInstant ω} {before : List (CallInstant ω)} (h : i.calls = []) :
    Means table given name (i :: before) (table i.outside name)
  | own {i : CallInstant ω} {before : List (CallInstant ω)} {c : CallFrame} {outer : List CallFrame}
    {v : Value} (h : i.calls = c :: outer) (hv : c.own.lookup name = some v) :
    Means table given name (i :: before) (some v)
  | enclosing {i j : CallInstant ω} {before earlier : List (CallInstant ω)} {c : CallFrame}
    {outer : List CallFrame} {v : Option Value} (h : i.calls = c :: outer)
    (hnone : c.own.lookup name = none) (hj : j :: earlier <:+ before)
    (hevent : j.event = .captured c.closure) (hv : Means table given name (j :: earlier) v) :
    Means table given name (i :: before) v
  | given {i : CallInstant ω} {before : List (CallInstant ω)} {c : CallFrame}
    {outer : List CallFrame} (h : i.calls = c :: outer) (hnone : c.own.lookup name = none)
    (hgiven : ∃ v ∈ given, v.Reaches c.closure) :
    Means table given name (i :: before) (c.scope.lookup name)

section Meaning

variable {given : List Value} {name : String}

theorem CallInstant.finds_of_own {i : CallInstant ω} {c : CallFrame} {outer : List CallFrame}
    (h : i.calls = c :: outer) : i.finds table name =
      (c.own.lookup name).or (c.scope.lookup name) := by
  simp only [CallInstant.finds, h, CallFrame.names_eq, List.lookup_append]

/-- The meaning is what is found. -/
theorem Means.eq_finds {instants : List (CallInstant ω)} {v : Option Value}
    (h : Means table given name instants v) (hall : AllAgree table given instants)
    {i : CallInstant ω} {before : List (CallInstant ω)} (heq : instants = i :: before) :
    v = i.finds table name := by
  induction h generalizing i before with
  | outside h =>
    cases heq
    simp only [CallInstant.finds, h]
  | own h hv =>
    cases heq
    simp only [CallInstant.finds_of_own h, hv, Option.some_or]
  | enclosing h hnone hj hevent hv ih =>
    cases heq
    rw [CallInstant.finds_of_own h, hnone, Option.none_or, ih (hall.2.suffix hj) rfl]
    have hscope := ((hall.2.of_suffix hj).captured _ _ _ _ hevent).1 name
    exact hscope.symm
  | given h hnone hgiven =>
    cases heq
    rw [CallInstant.finds_of_own h, hnone, Option.none_or]

/-- There always is a meaning. -/
theorem CallInstant.means_finds : ∀ (i : CallInstant ω) {before : List (CallInstant ω)},
    AllAgree table given (i :: before) → Means table given name (i :: before) (i.finds table name)
  | i, before, hall => by
    cases hcalls : i.calls with
    | nil =>
      have houtside : Means table given name (i :: before) (table i.outside name) :=
        .outside hcalls
      simpa only [CallInstant.finds, hcalls] using houtside
    | cons c outer =>
      rw [CallInstant.finds_of_own hcalls]
      cases hown : c.own.lookup name with
      | some v => exact .own hcalls hown
      | none =>
        rw [Option.none_or]
        -- A closure is made by its literal, where its scope was what was found, or given.
        rcases hall.1.calls c outer hcalls _ _ _ _ rfl with ⟨j, hj, hevent⟩ | hgiven
        · obtain ⟨newer, earlier, rfl⟩ := List.append_of_mem hj
          have hsuffix : j :: earlier <:+ newer ++ j :: earlier := List.suffix_append _ _
          have hscope := ((hall.2.of_suffix hsuffix).captured _ _ _ _ hevent).1 name
          rw [hscope]
          exact .enclosing hcalls hown hsuffix hevent
            (CallInstant.means_finds j (hall.2.suffix hsuffix))
        · exact .given hcalls hown hgiven
termination_by _ before => before.length
decreasing_by
  subst_vars
  simp only [List.length_append, List.length_cons]
  omega

/-- A name that is looked up has the value of what it means, else that of the global of its name,
and else none. -/
theorem CallHistory.Sound.looked {h : CallHistory ω} (hsound : h.Sound table) {i : CallInstant ω}
    {before : List (CallInstant ω)} (hi : i :: before <:+ h.instants) {v : Value}
    (hevent : i.event = .looked name v) :
    (∃ meaning, Means table h.given name (i :: before) meaning) ∧
      ∀ meaning, Means table h.given name (i :: before) meaning →
        v = (meaning.or (global? name)).getD .undefined := by
  have hall := hsound.suffix hi
  refine ⟨⟨_, i.means_finds hall⟩, fun meaning hmeaning => ?_⟩
  rw [hmeaning.eq_finds hall rfl]
  exact hall.1.looked name v hevent

end Meaning

end Templating
