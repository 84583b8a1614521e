import Templating.Proofs.Balance

/-!
Targets of a linked list. A branch goes on at the next branch of its conditional or, when there is
none, at its end; every construct ends at the directive that closes it. Both are told without the
targets, by what lies in between: whole constructs only.
-/
namespace Templating

namespace Instruction

def unaimed : Instruction → Instruction
  | branch test _ => branch test none
  | elseBranch test _ _ => elseBranch test none none
  | otherwise _ => otherwise none
  | loop kind value key source _ => loop kind value key source none
  | other => other

def targets : Instruction → List (Option Nat)
  | branch _ next => [next]
  | elseBranch _ next stop => [next, stop]
  | otherwise stop | loop _ _ _ _ stop => [stop]
  | _ => []

theorem unaimed_aimed (instruction : Instruction) (t : Target) :
    (instruction.aimed t).unaimed = instruction.unaimed := by
  cases instruction <;> rfl

theorem balance_unaimed (instruction : Instruction) (i : Nat) (stack : List Open) :
    instruction.unaimed.balance i stack = instruction.balance i stack := by
  cases instruction <;> rfl

theorem aimed_aimed (instruction : Instruction) (t : Target) :
    (instruction.aimed t).aimed t = instruction.aimed t := by
  cases instruction <;> rfl

end Instruction

namespace Statement

def unaimed (s : Statement) : Statement := s.as s.instruction.unaimed

theorem unaimed_aimed (ts : List Target) (i : Nat) (s : Statement) :
    (s.aimed ts i).unaimed = s.unaimed := by
  unfold aimed
  split
  · simp only [unaimed, as, Instruction.unaimed_aimed]
  · rfl

theorem aimed_aimed (ts : List Target) (i : Nat) (s : Statement) :
    (s.aimed ts i).aimed ts i = s.aimed ts i := by
  unfold aimed
  split
  · simp only [Instruction.aimed_aimed]
  · rfl

end Statement

/-- What opens and closes does not depend on the targets. -/
theorem targetsFrom_unaimed (l : List Statement) (i : Nat) (stack : List Open) :
    targetsFrom i stack (l.map Statement.unaimed) = targetsFrom i stack l := by
  induction l generalizing i stack with
  | nil => rfl
  | cons s l ih =>
    simp only [List.map_cons, targetsFrom, Statement.unaimed, Statement.as,
      Instruction.balance_unaimed, ih]

/-- Linking changes no more than the targets. -/
theorem unaimed_of_link {l linked : List Statement} (h : link l = .ok linked) :
    linked.map Statement.unaimed = l.map Statement.unaimed := by
  cases hl : targetsFrom 0 [] l with
  | error e => simp [link, hl, Except.map] at h
  | ok ts =>
    obtain rfl : l.mapIdx (Statement.aimed ts) = linked := by simpa [link, hl, Except.map] using h
    apply List.ext_getElem
    · simp
    · intro n _ _
      simp [Statement.unaimed_aimed]

theorem link_of_link {l linked : List Statement} (h : link l = .ok linked) :
    link linked = .ok linked := by
  have htargets : targetsFrom 0 [] linked = targetsFrom 0 [] l := by
    rw [← targetsFrom_unaimed, unaimed_of_link h, targetsFrom_unaimed]
  cases hl : targetsFrom 0 [] l with
  | error e => simp [link, hl, Except.map] at h
  | ok ts =>
    obtain rfl : l.mapIdx (Statement.aimed ts) = linked := by simpa [link, hl, Except.map] using h
    simp only [link, htargets, hl, Except.map, Except.ok.injEq]
    apply List.ext_getElem
    · simp
    · intro n _ _
      simp [Statement.aimed_aimed]

namespace Instruction

/-- Goes on with an open conditional. -/
def isBranch : Instruction → Bool
  | elseBranch _ _ _ | otherwise _ => true
  | _ => false

def isClose : Instruction → Bool
  | close => true
  | _ => false

def continues (instruction : Instruction) : Bool := instruction.isBranch || instruction.isClose

theorem not_isClose {instruction : Instruction} (h : instruction.isBranch = true) :
    instruction.isClose = false := by
  cases instruction <;> first | rfl | cases h

end Instruction

/-- After the statement at `i` come whole constructs only, and then `s` at `j`. -/
def Reaches (l : List Statement) (i : Nat) (s : Statement) (j : Nat) : Prop :=
  ∃ body, Balanced body ∧ HasAt l (i + 1) (body ++ [s]) ∧ j = i + 1 + body.length

/-- The conditional open at `i` has its next branch at `j`, or its end when there is none. -/
def GoesOn (l : List Statement) (i j : Nat) : Prop :=
  ∃ s, Reaches l i s j ∧ s.instruction.continues = true

/-- The conditional or loop that is open at `i` is closed at `j`, after the branches in between. -/
inductive EndsAt (l : List Statement) : Nat → Nat → Prop
  | close {i j : Nat} {s : Statement} (next : Reaches l i s j)
      (closes : s.instruction.isClose = true) : EndsAt l i j
  | branch {i j k : Nat} {s : Statement} (next : Reaches l i s k)
      (branch : s.instruction.isBranch = true) (rest : EndsAt l k j) : EndsAt l i j

theorem HasAt.head_of_append {l body after : List Statement} {i : Nat} {s : Statement}
    (h : HasAt l i (body ++ s :: after)) : HasAt l i (body ++ [s]) := by
  rw [List.append_cons] at h
  exact h.left

section Places

variable {l : List Statement} {i j j' : Nat} {s s' : Statement}

/-- After whole constructs alone there is nothing to go on with. -/
theorem not_completable_continues {body : List Statement} (h : Balanced body)
    (hs : s.instruction.continues = true) : ¬ Completable (body ++ [s]) := by
  obtain ⟨n, rfl⟩ := h
  obtain ⟨ts, -, hread⟩ := n.reads 0
  have hrefused : ∃ fault, s.instruction.balance n.statements.length [] = .error fault := by
    cases hinstruction : s.instruction with
    | elseBranch | otherwise | close => exact ⟨_, rfl⟩
    | _ => rw [hinstruction] at hs; cases hs
  obtain ⟨fault, hfault⟩ := hrefused
  exact not_completable (hread []) hfault

theorem Reaches.unique (h : Reaches l i s j) (h' : Reaches l i s' j')
    (hs : s.instruction.continues = true) (hs' : s'.instruction.continues = true) :
    s = s' ∧ j = j' := by
  obtain ⟨body, hbody, hat, rfl⟩ := h
  obtain ⟨body', hbody', hat', rfl⟩ := h'
  have heq : body ++ [s] = body' ++ [s'] := by
    rcases List.prefix_or_prefix_of_prefix hat hat' with hle | hle
    · rcases List.prefix_concat_iff.mp hle with heq | ⟨rest, rfl⟩
      · exact heq
      · exact absurd ⟨rest, hbody'⟩ (not_completable_continues hbody hs)
    · rcases List.prefix_concat_iff.mp hle with heq | ⟨rest, rfl⟩
      · exact heq.symm
      · exact absurd ⟨rest, hbody⟩ (not_completable_continues hbody' hs')
  obtain ⟨rfl, hlast⟩ := List.append_inj' heq rfl
  exact ⟨List.singleton_inj.mp hlast, rfl⟩

theorem GoesOn.unique (h : GoesOn l i j) (h' : GoesOn l i j') : j = j' := by
  obtain ⟨s, hreaches, hs⟩ := h
  obtain ⟨s', hreaches', hs'⟩ := h'
  exact (hreaches.unique hreaches' hs hs').2

theorem EndsAt.unique (h : EndsAt l i j) (h' : EndsAt l i j') : j = j' := by
  induction h with
  | @close i j s next closes =>
    have hs : s.instruction.continues = true := by simp [Instruction.continues, closes]
    cases h' with
    | @close _ _ s' next' closes' =>
      have hs' : s'.instruction.continues = true := by simp [Instruction.continues, closes']
      exact (next.unique next' hs hs').2
    | @branch _ _ _ s' next' branch' =>
      have hs' : s'.instruction.continues = true := by simp [Instruction.continues, branch']
      obtain ⟨rfl, -⟩ := next.unique next' hs hs'
      rw [Instruction.not_isClose branch'] at closes
      cases closes
  | @branch i j k s next branch _ ih =>
    have hs : s.instruction.continues = true := by simp [Instruction.continues, branch]
    cases h' with
    | @close _ _ s' next' closes' =>
      have hs' : s'.instruction.continues = true := by simp [Instruction.continues, closes']
      obtain ⟨rfl, -⟩ := next.unique next' hs hs'
      rw [Instruction.not_isClose branch] at closes'
      cases closes'
    | @branch _ _ _ s' next' branch' rest' =>
      have hs' : s'.instruction.continues = true := by simp [Instruction.continues, branch']
      obtain ⟨-, rfl⟩ := next.unique next' hs hs'
      exact ih rest'

theorem Reaches.bounds (h : Reaches l i s j) : i < j ∧ j < l.length := by
  obtain ⟨body, -, hat, rfl⟩ := h
  have hlength := hat.length_le
  simp only [List.length_append, List.length_singleton, List.length_drop] at hlength
  omega

theorem GoesOn.bounds (h : GoesOn l i j) : i < j ∧ j < l.length := h.choose_spec.1.bounds

theorem EndsAt.bounds (h : EndsAt l i j) : i < j ∧ j < l.length := by
  induction h with
  | close next => exact next.bounds
  | branch next _ _ ih => exact ⟨Nat.lt_trans next.bounds.1 ih.1, ih.2⟩

end Places

/-- Every target is there and where the instruction goes on. -/
def Instruction.Settled (l : List Statement) (i : Nat) : Instruction → Prop
  | branch _ next => ∃ j, next = some j ∧ GoesOn l i j
  | elseBranch _ next stop =>
    (∃ j, next = some j ∧ GoesOn l i j) ∧ ∃ j, stop = some j ∧ EndsAt l i j
  | otherwise stop | loop _ _ _ _ stop => ∃ j, stop = some j ∧ EndsAt l i j
  | _ => True

section Nests

variable {l : List Statement}

/-- Whole constructs and then branches with their end: the construct goes on at the first of them
and ends at the last. -/
theorem Branches.leads : ∀ (b : Branches) {i stop : Nat} {body after : List Statement}
    {e : Statement}, Balanced body →
      HasAt l (i + 1) (body ++ (b.statements ++ e.as .close :: after)) →
      i + 1 + body.length + b.size = stop → GoesOn l i (i + 1 + body.length) ∧ EndsAt l i stop
  | .nil, i, stop, body, after, e, hbody, hat, hstop => by
    obtain rfl : i + 1 + body.length = stop := hstop
    have hreaches : Reaches l i (e.as .close) (i + 1 + body.length) :=
      ⟨body, hbody, hat.head_of_append, rfl⟩
    exact ⟨⟨_, hreaches, rfl⟩, .close hreaches rfl⟩
  | .elseBranch s test next stop' inner more, i, stop, body, after, e, hbody, hat, hstop => by
    have hreaches : Reaches l i (s.as (.elseBranch test next stop')) (i + 1 + body.length) :=
      ⟨body, hbody, hat.head_of_append, rfl⟩
    have hinner : HasAt l (i + 1 + body.length + 1)
        (inner.statements ++ (more.statements ++ e.as .close :: after)) := by
      simpa [Branches.statements] using hat.right.tail
    rw [Branches.size_elseBranch, Nest.size] at hstop
    have hsize : i + 1 + body.length + 1 + inner.statements.length + more.size = stop := by omega
    have hmore := more.leads ⟨inner, rfl⟩ hinner hsize
    exact ⟨⟨_, hreaches, rfl⟩, .branch hreaches rfl hmore.2⟩
  | .otherwise s stop' inner, i, stop, body, after, e, hbody, hat, hstop => by
    have hreaches : Reaches l i (s.as (.otherwise stop')) (i + 1 + body.length) :=
      ⟨body, hbody, hat.head_of_append, rfl⟩
    have hclose : Reaches l (i + 1 + body.length) (e.as .close)
        (i + 1 + body.length + 1 + inner.statements.length) :=
      ⟨inner.statements, ⟨inner, rfl⟩, hat.right.tail.head_of_append, rfl⟩
    rw [Branches.size_otherwise, Nest.size] at hstop
    obtain rfl : i + 1 + body.length + 1 + inner.statements.length = stop := by omega
    exact ⟨⟨_, hreaches, rfl⟩, .branch hreaches rfl (.close hclose rfl)⟩

theorem settled_of_untargeted {instruction : Instruction} (h : instruction.targets = []) (i : Nat) :
    instruction.Settled l i := by
  cases instruction <;> trivial

theorem targets_of_plain {instruction : Instruction} (h : instruction.isPlain = true) :
    instruction.targets = [] := by
  cases instruction <;> first | rfl | nomatch h

theorem targets_opening (collector : Collector) : collector.opening.targets = [] := by
  cases collector <;> rfl

theorem targets_closing (collector : Collector) : collector.closing.targets = [] := by
  cases collector <;> rfl

def SettledFrom (l : List Statement) (i k : Nat) : Prop :=
  ∀ j, i ≤ j → j < k → ∀ s ∈ l[j]?, s.instruction.Settled l j

namespace SettledFrom

variable {i j k : Nat} {s : Statement}

theorem nil : SettledFrom l i i := fun _ hle hlt => absurd hlt (Nat.not_lt.mpr hle)

theorem cons (hs : l[i]? = some s) (h : s.instruction.Settled l i)
    (hrest : SettledFrom l (i + 1) k) :
    SettledFrom l i k := by
  intro j hle hlt s' hs'
  rcases Nat.eq_or_lt_of_le hle with rfl | hlater
  · obtain rfl : s = s' := Option.some.inj (hs.symm.trans hs')
    exact h
  · exact hrest j hlater hlt s' hs'

theorem append (h : SettledFrom l i j) (h' : SettledFrom l j k) : SettledFrom l i k := by
  intro place hle hlt
  rcases Nat.lt_or_ge place j with hbefore | hafter
  · exact h place hle hbefore
  · exact h' place hafter hlt

end SettledFrom

mutual

/-- Where a list holds a nest with its targets, each of them is right. -/
theorem Nest.settled : ∀ (n : Nest) {i k : Nat}, HasAt l i n.statements → n.At l i →
    i + n.size = k → SettledFrom l i k
  | .nil, i, _, _, _, rfl => .nil
  | .plain s hplain rest, i, k, hat, h, hk => by
    rw [Nest.size_plain] at hk
    have hrest := rest.settled hat.tail h.2 (k := k) (by omega)
    exact .cons h.1 (settled_of_untargeted (targets_of_plain hplain) i) hrest
  | .conditional s test next body branches e rest, i, k, hat, h, hk => by
    obtain ⟨hopen, hbody, hbranches, hclose, hrest⟩ := h
    have hinner : HasAt l (i + 1)
        (body.statements ++ (branches.statements ++ e.as .close :: rest.statements)) := hat.tail
    rw [Nest.size_conditional] at hk
    have hnext := (branches.leads ⟨body, rfl⟩ hinner rfl).1
    refine .cons hopen ⟨_, rfl, hnext⟩ ((body.settled hinner.left hbody rfl).append ?_)
    refine (branches.settled hinner.right hbranches rfl).append ?_
    exact .cons hclose trivial
      (rest.settled hinner.right.right.tail hrest
        (by simp only [Nest.size, Branches.size] at *; omega))
  | .loop s head stop body e rest, i, k, hat, h, hk => by
    obtain ⟨hopen, hbody, hclose, hrest⟩ := h
    have hinner : HasAt l (i + 1) (body.statements ++ e.as .close :: rest.statements) := hat.tail
    rw [Nest.size_loop] at hk
    have hend : EndsAt l i (i + 1 + body.size) :=
      .close ⟨_, ⟨body, rfl⟩, hinner.head_of_append, rfl⟩ rfl
    refine .cons hopen ⟨_, rfl, hend⟩ ((body.settled hinner.left hbody rfl).append ?_)
    exact .cons hclose trivial
      (rest.settled hinner.right.tail hrest (by simp only [Nest.size] at *; omega))
  | .collecting s collector body e rest, i, k, hat, h, hk => by
    obtain ⟨hopen, hbody, hclose, hrest⟩ := h
    have hinner : HasAt l (i + 1) (body.statements ++ e.as collector.closing :: rest.statements) :=
      hat.tail
    rw [Nest.size_collecting] at hk
    refine .cons hopen (settled_of_untargeted (targets_opening collector) i)
      ((body.settled hinner.left hbody rfl).append ?_)
    exact .cons hclose (settled_of_untargeted (targets_closing collector) _)
      (rest.settled hinner.right.tail hrest (by simp only [Nest.size] at *; omega))

/-- The same for branches, of a conditional that ends at `stop`. -/
theorem Branches.settled : ∀ (b : Branches) {i stop : Nat} {e : Statement}
    {after : List Statement}, HasAt l i (b.statements ++ e.as .close :: after) →
      b.At l i stop → i + b.size = stop → SettledFrom l i stop
  | .nil, i, _, e, after, _, _, rfl => .nil
  | .elseBranch s test next stop' body more, i, stop, e, after, hat, h, hstop => by
    obtain ⟨hopen, hbody, hmore⟩ := h
    have hinner : HasAt l (i + 1)
        (body.statements ++ (more.statements ++ e.as .close :: after)) := by
      simpa [Branches.statements] using hat.tail
    rw [Branches.size_elseBranch] at hstop
    have hsize : i + 1 + body.statements.length + more.size = stop := by
      simp only [Nest.size] at hstop
      omega
    obtain ⟨hnext, hend⟩ := more.leads ⟨body, rfl⟩ hinner hsize
    refine .cons hopen ⟨⟨_, rfl, hnext⟩, _, rfl, hend⟩
      ((body.settled hinner.left hbody rfl).append ?_)
    exact more.settled hinner.right hmore (by simp only [Nest.size] at *; omega)
  | .otherwise s stop' body, i, stop, e, after, hat, h, hstop => by
    obtain ⟨hopen, hbody⟩ := h
    have hinner : HasAt l (i + 1) (body.statements ++ e.as .close :: after) := hat.tail
    rw [Branches.size_otherwise] at hstop
    obtain rfl : i + 1 + body.size = stop := by omega
    have hend : EndsAt l i (i + 1 + body.size) :=
      .close ⟨_, ⟨body, rfl⟩, hinner.head_of_append, rfl⟩ rfl
    exact .cons hopen ⟨_, rfl, hend⟩ (body.settled hinner.left hbody rfl)

end

end Nests

/-- The targets of the instruction at `i` are the places where it goes on, and no others are. -/
def Instruction.AimsRight (l : List Statement) (i : Nat) : Instruction → Prop
  | branch _ next => ∀ j, next = some j ↔ GoesOn l i j
  | elseBranch _ next stop =>
    (∀ j, next = some j ↔ GoesOn l i j) ∧ ∀ j, stop = some j ↔ EndsAt l i j
  | otherwise stop | loop _ _ _ _ stop => ∀ j, stop = some j ↔ EndsAt l i j
  | _ => True

section Settled

variable {l : List Statement} {i : Nat} {instruction : Instruction}

theorem GoesOn.eq_iff {next : Option Nat} (h : ∃ j, next = some j ∧ GoesOn l i j) (j : Nat) :
    next = some j ↔ GoesOn l i j := by
  obtain ⟨k, rfl, hk⟩ := h
  refine ⟨fun heq => Option.some.inj heq ▸ hk, fun hj => congrArg some (hk.unique hj)⟩

theorem EndsAt.eq_iff {stop : Option Nat} (h : ∃ j, stop = some j ∧ EndsAt l i j) (j : Nat) :
    stop = some j ↔ EndsAt l i j := by
  obtain ⟨k, rfl, hk⟩ := h
  refine ⟨fun heq => Option.some.inj heq ▸ hk, fun hj => congrArg some (hk.unique hj)⟩

theorem Instruction.Settled.aimsRight (h : instruction.Settled l i) :
    instruction.AimsRight l i := by
  cases instruction with
  | branch => exact GoesOn.eq_iff h
  | elseBranch => exact ⟨GoesOn.eq_iff h.1, EndsAt.eq_iff h.2⟩
  | otherwise | loop => exact EndsAt.eq_iff h
  | _ => trivial

theorem Instruction.Settled.forward (h : instruction.Settled l i) :
    ∀ target ∈ instruction.targets, ∃ j, target = some j ∧ i < j ∧ j < l.length := by
  have hnext : ∀ {next}, (∃ j, next = some j ∧ GoesOn l i j) → ∃ j, next = some j ∧ i < j ∧
      j < l.length := fun ⟨j, heq, hj⟩ => ⟨j, heq, hj.bounds⟩
  have hstop : ∀ {stop}, (∃ j, stop = some j ∧ EndsAt l i j) → ∃ j, stop = some j ∧ i < j ∧
      j < l.length := fun ⟨j, heq, hj⟩ => ⟨j, heq, hj.bounds⟩
  intro target htarget
  cases instruction with
  | branch => exact List.eq_of_mem_singleton htarget ▸ hnext h
  | elseBranch =>
    rcases List.mem_cons.mp htarget with rfl | htarget
    · exact hnext h.1
    · exact List.eq_of_mem_singleton htarget ▸ hstop h.2
  | otherwise | loop => exact List.eq_of_mem_singleton htarget ▸ hstop h
  | _ => nomatch htarget

end Settled

structure Linked (l linked : List Statement) : Prop where
  /-- Nothing but targets is changed. -/
  same : linked.map Statement.unaimed = l.map Statement.unaimed
  /-- No target is missing, and each is a later place in the list. -/
  forward : ∀ (i : Nat) (s : Statement), linked[i]? = some s → ∀ target ∈ s.instruction.targets,
    ∃ j, target = some j ∧ i < j ∧ j < linked.length
  right : ∀ (i : Nat) (s : Statement), linked[i]? = some s → s.instruction.AimsRight linked i
  again : link linked = .ok linked

/-- In a list that is accepted every branch is aimed at the next one of its conditional or at its
end, and every construct at its own end; linking once more changes nothing. -/
theorem linked_of_link {l linked : List Statement} (h : link l = .ok linked) : Linked l linked := by
  have hagain := link_of_link h
  obtain ⟨n, hn⟩ := Balanced.of_link hagain
  obtain ⟨linked', hlinked', hat⟩ := n.link_statements
  rw [hn, hagain] at hlinked'
  obtain rfl : linked = linked' := Except.ok.inj hlinked'
  have hholds : HasAt linked 0 n.statements := hn ▸ List.prefix_refl _
  have hsettled : ∀ (i : Nat) (s : Statement),
      linked[i]? = some s → s.instruction.Settled linked i := by
    intro i s hs
    have hlt := (List.getElem?_eq_some_iff.mp hs).1
    rw [← hn] at hlt
    exact n.settled hholds hat rfl i (Nat.zero_le i) (by rwa [Nat.zero_add]) s hs
  exact {
    same := unaimed_of_link h
    forward := fun i s hs => (hsettled i s hs).forward
    right := fun i s hs => (hsettled i s hs).aimsRight
    again := hagain }

/-- A conditional with every kind of branch, around a loop and another conditional, linked or
not. -/
def branching (aim : Nat → Option Nat) : List Statement :=
  [.branch (.holds (.name "a")) (aim 3), .loop .entries "x" none (.name "xs") (aim 2), .close,
    .elseBranch (.name "b") (aim 6) (aim 7), .branch (.unbound "c") (aim 5), .close,
    .otherwise (aim 7), .close].map (Statement.as default)

theorem linked_branching : link (branching fun _ => none) = .ok (branching some) ∧
    Linked (branching fun _ => none) (branching some) :=
  ⟨rfl, linked_of_link rfl⟩

end Templating
