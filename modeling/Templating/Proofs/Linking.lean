import Mathlib.Data.List.Pairwise
import Mathlib.Data.Nat.Basic
import Mathlib.Tactic.Tauto
import Templating.Proofs.Nest

/-!
Linking a nest: the targets that it settles are those of its statements in order, and the linked list
holds the nest with every target right.
-/
namespace Templating

mutual

/-- From `i` on the list holds the nest, with targets that fit its places. -/
def Nest.At (l : List Statement) : Nat → Nest → Prop
  | _, .nil => True
  | i, .plain s _ rest => l[i]? = some s ∧ rest.At l (i + 1)
  | i, .conditional s test _ body branches e rest =>
    let first := i + 1 + body.size
    let stop := first + branches.size
    l[i]? = some (s.as (.branch test (some first))) ∧ body.At l (i + 1) ∧
      branches.At l first stop ∧ l[stop]? = some (e.as .close) ∧ rest.At l (stop + 1)
  | i, .loop s head _ body e rest =>
    let stop := i + 1 + body.size
    l[i]? = some (s.as (head.instruction (some stop))) ∧ body.At l (i + 1) ∧
      l[stop]? = some (e.as .close) ∧ rest.At l (stop + 1)
  | i, .collecting s collector body e rest =>
    let stop := i + 1 + body.size
    l[i]? = some (s.as collector.opening) ∧ body.At l (i + 1) ∧
      l[stop]? = some (e.as collector.closing) ∧ rest.At l (stop + 1)

def Branches.At (l : List Statement) : Nat → Nat → Branches → Prop
  | _, _, .nil => True
  | j, stop, .elseBranch s test _ _ body more =>
    let next := j + 1 + body.size
    l[j]? = some (s.as (.elseBranch test (some next) (some stop))) ∧ body.At l (j + 1) ∧
      more.At l next stop
  | j, stop, .otherwise s _ body =>
    l[j]? = some (s.as (.otherwise (some stop))) ∧ body.At l (j + 1)

end

mutual

def Nest.targets : Nat → Nest → List Target
  | _, .nil => []
  | i, .plain _ _ rest => rest.targets (i + 1)
  | i, .conditional _ _ _ body branches _ rest =>
    let first := i + 1 + body.size
    let stop := first + branches.size
    ⟨i, first, stop⟩ ::
      (body.targets (i + 1) ++ (branches.targets first stop ++ rest.targets (stop + 1)))
  | i, .loop _ _ _ body _ rest =>
    let stop := i + 1 + body.size
    ⟨i, stop, stop⟩ :: (body.targets (i + 1) ++ rest.targets (stop + 1))
  | i, .collecting _ _ body _ rest => body.targets (i + 1) ++ rest.targets (i + 1 + body.size + 1)

def Branches.targets : Nat → Nat → Branches → List Target
  | _, _, .nil => []
  | j, stop, .elseBranch _ _ _ _ body more =>
    let next := j + 1 + body.size
    ⟨j, next, stop⟩ :: (body.targets (j + 1) ++ more.targets next stop)
  | j, stop, .otherwise _ _ body => ⟨j, stop, stop⟩ :: body.targets (j + 1)

end

/-- Targets of statements between two places, one for a statement at most and in order. -/
structure InOrder (targets : List Target) (i j : Nat) : Prop where
  sorted : targets.Pairwise fun t u => t.index < u.index
  bounds : ∀ t ∈ targets, i ≤ t.index ∧ t.index < j

namespace InOrder

variable {ts us : List Target} {i j k : Nat}

theorem nil : InOrder [] i j := ⟨List.Pairwise.nil, by simp⟩

theorem weaken (h : InOrder ts i j) {i' j' : Nat} (hi : i' ≤ i) (hj : j ≤ j') :
    InOrder ts i' j' := by
  refine ⟨h.sorted, fun t ht => ?_⟩
  have := h.bounds t ht
  omega

theorem cons {next stop : Nat} (h : InOrder ts (i + 1) j) (hi : i < k) (hj : j ≤ k) :
    InOrder (⟨i, next, stop⟩ :: ts) i k := by
  refine ⟨List.pairwise_cons.mpr ⟨fun t ht => (h.bounds t ht).1, h.sorted⟩, fun t ht => ?_⟩
  rcases List.mem_cons.mp ht with rfl | ht
  · exact ⟨le_rfl, hi⟩
  · have := h.bounds t ht
    omega

theorem append (ht : InOrder ts i j) (hu : InOrder us j k) (hij : i ≤ j) (hjk : j ≤ k) :
    InOrder (ts ++ us) i k := by
  constructor
  · refine List.pairwise_append.mpr ⟨ht.sorted, hu.sorted, fun t htm u hum => ?_⟩
    exact Nat.lt_of_lt_of_le (ht.bounds t htm).2 (hu.bounds u hum).1
  · intro t h
    rcases List.mem_append.mp h with h | h
    · exact (ht.weaken le_rfl hjk).bounds t h
    · exact (hu.weaken hij le_rfl).bounds t h

theorem eq_of_index (h : InOrder ts i j) {t u : Target} (ht : t ∈ ts) (hu : u ∈ ts)
    (heq : t.index = u.index) : t = u := by
  have hdistinct : ts.Pairwise fun t u => t.index = u.index → t = u :=
    h.sorted.imp fun hlt heq => absurd heq (Nat.ne_of_lt hlt)
  have hflip : ts.Pairwise (flip fun t u : Target => t.index = u.index → t = u) :=
    hdistinct.imp fun hs he => (hs he.symm).symm
  exact hdistinct.forall_of_forall_of_flip (fun _ _ _ => rfl) hflip ht hu heq

/-- A target is found by the statement that it belongs to. -/
theorem find_eq (h : InOrder ts i j) {all : List Target} (hall : ∀ t, t ∈ all ↔ t ∈ ts)
    {t : Target} (ht : t ∈ ts) : all.find? (·.index == t.index) = some t := by
  have hsome : (all.find? (·.index == t.index)).isSome := by
    rw [List.find?_isSome]
    exact ⟨t, (hall t).mpr ht, by simp⟩
  obtain ⟨u, hu⟩ := Option.isSome_iff_exists.mp hsome
  have humem : u ∈ ts := (hall u).mp (List.mem_of_find?_eq_some hu)
  have hindex : u.index = t.index := by simpa using List.find?_some hu
  rw [hu, h.eq_of_index humem ht hindex]

end InOrder

mutual

theorem Nest.targets_inOrder : ∀ (n : Nest) (i : Nat), InOrder (n.targets i) i (i + n.size)
  | .nil, i => InOrder.nil
  | .plain s hs rest, i => by
    have hr := rest.targets_inOrder (i + 1)
    have hsize := Nest.size_plain s rest hs
    exact hr.weaken (Nat.le_succ _) (by omega)
  | .conditional s test next body branches e rest, i => by
    have hb := body.targets_inOrder (i + 1)
    have hbr := branches.targets_inOrder (i + 1 + body.size) (i + 1 + body.size + branches.size)
    have hr := rest.targets_inOrder (i + 1 + body.size + branches.size + 1)
    have hend := hbr.append (hr.weaken (Nat.le_succ _) le_rfl) (by omega) (by omega)
    have hinner := hb.append hend (by omega) (by omega)
    have hsize := Nest.size_conditional s e body rest branches test next
    exact hinner.cons (by omega) (by omega)
  | .loop s head stop body e rest, i => by
    have hb := body.targets_inOrder (i + 1)
    have hr := rest.targets_inOrder (i + 1 + body.size + 1)
    have hinner := hb.append (hr.weaken (Nat.le_succ _) le_rfl) (by omega) (by omega)
    have hsize := Nest.size_loop s e body rest head stop
    exact hinner.cons (by omega) (by omega)
  | .collecting s collector body e rest, i => by
    have hb := body.targets_inOrder (i + 1)
    have hr := rest.targets_inOrder (i + 1 + body.size + 1)
    have hinner := hb.append (hr.weaken (Nat.le_succ _) le_rfl) (by omega) (by omega)
    have hsize := Nest.size_collecting s e body rest collector
    exact hinner.weaken (Nat.le_succ _) (by omega)

theorem Branches.targets_inOrder : ∀ (b : Branches) (j stop : Nat),
    InOrder (b.targets j stop) j (j + b.size)
  | .nil, j, stop => InOrder.nil
  | .elseBranch s test next stop' body more, j, stop => by
    have hb := body.targets_inOrder (j + 1)
    have hm := more.targets_inOrder (j + 1 + body.size) stop
    have hinner := hb.append hm (by omega) (by omega)
    have hsize := Branches.size_elseBranch s body more test next stop'
    exact hinner.cons (by omega) (by omega)
  | .otherwise s stop' body, j, stop => by
    have hb := body.targets_inOrder (j + 1)
    have hsize := Branches.size_otherwise s body stop'
    exact hb.cons (by omega) (by omega)

end

/-- Reading the list from `i` on takes one stack of open constructs to another and settles targets,
whatever comes after it. -/
def Reads (i : Nat) (stack : List Open) (l : List Statement) (after : List Open)
    (ts : List Target) : Prop :=
  ∀ rest, targetsFrom i stack (l ++ rest) =
    (targetsFrom (i + l.length) after rest).map (ts ++ ·)

namespace Reads

variable {i : Nat} {stack mid after : List Open} {l m : List Statement} {ts us : List Target}

theorem nil : Reads i stack [] stack [] := by
  intro rest
  cases h : targetsFrom i stack rest <;> simp [h, Except.map]

theorem cons {s : Statement} (h : s.instruction.balance i stack = .ok (mid, ts))
    (hl : Reads (i + 1) mid l after us) : Reads i stack (s :: l) after (ts ++ us) := by
  intro rest
  have hrest := hl rest
  rw [Nat.add_right_comm] at hrest
  simp only [List.cons_append, targetsFrom, h, hrest, List.length_cons, ← Nat.add_assoc]
  cases targetsFrom (i + l.length + 1) after rest <;> simp [Except.map]

theorem append (hl : Reads i stack l mid ts) (hm : Reads (i + l.length) mid m after us) :
    Reads i stack (l ++ m) after (ts ++ us) := by
  intro rest
  rw [List.append_assoc, hl (m ++ rest), hm rest, List.length_append, ← Nat.add_assoc]
  cases targetsFrom (i + l.length + m.length) after rest <;> simp [Except.map]

/-- A list read on its own from no open construct to none is linked. -/
theorem link_eq (h : Reads 0 [] l [] ts) : link l = .ok (l.mapIdx (Statement.aimed ts)) := by
  have hl := h []
  simp only [List.append_nil, targetsFrom, Except.map] at hl
  simp [link, hl, Except.map]

end Reads

theorem balance_plain {instruction : Instruction} (h : instruction.isPlain = true) (i : Nat)
    (stack : List Open) : instruction.balance i stack = .ok (stack, []) := by
  cases instruction <;> simp_all [Instruction.isPlain, Instruction.balance]

theorem balance_opening (collector : Collector) (i : Nat) (stack : List Open) :
    collector.opening.balance i stack = .ok (collector.opened i :: stack, []) := by
  cases collector <;> rfl

theorem balance_closing (collector : Collector) (i j : Nat) (stack : List Open) :
    collector.closing.balance j (collector.opened i :: stack) = .ok (stack, []) := by
  cases collector <;> simp [Collector.closing, Collector.opened, Instruction.balance]

mutual

/-- A nest leaves the open constructs as they are and settles its own targets. -/
theorem Nest.reads : ∀ (n : Nest) (i : Nat), ∃ ts, (∀ t, t ∈ ts ↔ t ∈ n.targets i) ∧
    ∀ stack, Reads i stack n.statements stack ts
  | .nil, i => ⟨[], fun _ => Iff.rfl, fun _ => Reads.nil⟩
  | .plain s hs rest, i => by
    obtain ⟨ts, hts, hr⟩ := rest.reads (i + 1)
    exact ⟨ts, hts, fun stack => Reads.cons (balance_plain hs i stack) (hr stack)⟩
  | .conditional s test next body branches e rest, i => by
    obtain ⟨bs, hbs, hb⟩ := body.reads (i + 1)
    obtain ⟨cs, hcs, hc⟩ := branches.reads (i + 1 + body.size) _ i [] e rfl
    obtain ⟨rs, hrs, hr⟩ := rest.reads (i + 1 + body.size + branches.size + 1)
    -- a construct settles its targets at its end, so they are not in the order of `Nest.targets`
    refine ⟨[] ++ (bs ++ (cs ++ rs)), fun t => ?_, fun stack => ?_⟩
    · simp only [List.nil_append, List.mem_append, hbs, hcs, hrs, Nest.targets, branchTargets,
        List.mem_cons, List.not_mem_nil, or_false]
      tauto
    · have hrest : Reads (i + 1 + body.size + (branches.statements ++ [e.as .close]).length) stack
          rest.statements stack rs := by
        simpa [Branches.size, Nat.add_assoc] using hr stack
      have hend := (hc stack).append hrest
      rw [List.append_assoc, List.singleton_append] at hend
      exact Reads.cons rfl ((hb _).append hend)
  | .loop s head stop body e rest, i => by
    obtain ⟨bs, hbs, hb⟩ := body.reads (i + 1)
    obtain ⟨rs, hrs, hr⟩ := rest.reads (i + 1 + body.size + 1)
    refine ⟨[] ++ (bs ++ ([⟨i, i + 1 + body.size, i + 1 + body.size⟩] ++ rs)), fun t => ?_,
      fun stack => ?_⟩
    · simp only [List.nil_append, List.mem_append, hbs, hrs, Nest.targets, List.mem_cons,
        List.not_mem_nil, or_false]
      tauto
    · exact Reads.cons rfl ((hb _).append (Reads.cons rfl (hr stack)))
  | .collecting s collector body e rest, i => by
    obtain ⟨bs, hbs, hb⟩ := body.reads (i + 1)
    obtain ⟨rs, hrs, hr⟩ := rest.reads (i + 1 + body.size + 1)
    refine ⟨[] ++ (bs ++ ([] ++ rs)), fun t => ?_, fun stack => ?_⟩
    · simp only [List.nil_append, List.mem_append, hbs, hrs, Nest.targets]
    · have hclose := Reads.cons (s := e.as collector.closing)
        (balance_closing collector i _ stack) (hr stack)
      exact Reads.cons (balance_opening collector i stack) ((hb _).append hclose)

/-- Branches with the end of their conditional settle their own targets and those of the branches
before them. -/
theorem Branches.reads : ∀ (b : Branches) (j stop opener : Nat) (before : List Nat) (e : Statement),
    j + b.size = stop → ∃ ts,
      (∀ t, t ∈ ts ↔ t ∈ b.targets j stop ∨ t ∈ branchTargets stop j (before ++ [opener])) ∧
      ∀ outer, Reads j (.conditional opener before false :: outer) (b.statements ++ [e.as .close])
        outer ts
  | .nil, j, stop, opener, before, e, hstop => by
    obtain rfl : j = stop := hstop
    refine ⟨_, fun t => ?_, fun outer => Reads.cons rfl Reads.nil⟩
    simp [Branches.targets]
  | .elseBranch s test next stop' body more, j, stop, opener, before, e, hstop => by
    simp only [Branches.size_elseBranch] at hstop
    obtain ⟨bs, hbs, hb⟩ := body.reads (j + 1)
    obtain ⟨ms, hms, hm⟩ := more.reads (j + 1 + body.size) stop opener (j :: before) e (by omega)
    refine ⟨[] ++ (bs ++ ms), fun t => ?_, fun outer => ?_⟩
    · simp only [List.nil_append, List.mem_append, hbs, hms, Branches.targets, branchTargets,
        List.cons_append, List.mem_cons]
      tauto
    · have hread := (hb (.conditional opener (j :: before) false :: outer)).append (hm outer)
      rw [← List.append_assoc] at hread
      exact Reads.cons rfl hread
  | .otherwise s stop' body, j, stop, opener, before, e, hstop => by
    simp only [Branches.size_otherwise] at hstop
    obtain rfl : j + 1 + body.size = stop := by omega
    obtain ⟨bs, hbs, hb⟩ := body.reads (j + 1)
    refine ⟨[] ++ (bs ++ (branchTargets (j + 1 + body.size) (j + 1 + body.size)
      (j :: before ++ [opener]) ++ [])), fun t => ?_, fun outer => ?_⟩
    · simp only [List.nil_append, List.append_nil, List.mem_append, hbs, Branches.targets,
        branchTargets, List.cons_append, List.mem_cons]
      tauto
    · exact Reads.cons rfl ((hb _).append (Reads.cons rfl Reads.nil))

end

def HasAt (l : List Statement) (i : Nat) (block : List Statement) : Prop := block <+: l.drop i

namespace HasAt

variable {l block more : List Statement} {s : Statement} {i : Nat}

theorem head (h : HasAt l i (s :: block)) : l[i]? = some s := by
  obtain ⟨after, hafter⟩ := h
  have hget := congrArg List.head? hafter
  rw [List.head?_drop] at hget
  exact hget.symm

theorem tail (h : HasAt l i (s :: block)) : HasAt l (i + 1) block := by
  obtain ⟨after, hafter⟩ := h
  refine ⟨after, ?_⟩
  rw [← List.drop_drop, ← hafter]
  rfl

theorem left (h : HasAt l i (block ++ more)) : HasAt l i block :=
  (List.prefix_append block more).trans h

theorem right (h : HasAt l i (block ++ more)) : HasAt l (i + block.length) more := by
  obtain ⟨after, hafter⟩ := h
  refine ⟨after, ?_⟩
  rw [← List.drop_drop, ← hafter, List.append_assoc, List.drop_left]

end HasAt

/-- Every target of the second list is found in the first by its statement. -/
def Settles (all ts : List Target) : Prop := ∀ t ∈ ts, all.find? (·.index == t.index) = some t

theorem Settles.aimed {all ts : List Target} (h : Settles all ts) {t : Target} (ht : t ∈ ts)
    (s : Statement) : s.aimed all t.index = s.as (s.instruction.aimed t) := by
  simp [Statement.aimed, h t ht, Statement.as]

theorem aimed_eq_self {s : Statement} (h : ∀ t, s.instruction.aimed t = s.instruction)
    (all : List Target) (i : Nat) : s.aimed all i = s := by
  unfold Statement.aimed
  split
  · rw [h]
  · rfl

theorem aimed_plain {instruction : Instruction} (h : instruction.isPlain = true) (t : Target) :
    instruction.aimed t = instruction := by
  cases instruction <;> simp_all [Instruction.isPlain, Instruction.aimed]

theorem aimed_opening (collector : Collector) (t : Target) :
    collector.opening.aimed t = collector.opening := by
  cases collector <;> rfl

theorem aimed_closing (collector : Collector) (t : Target) :
    collector.closing.aimed t = collector.closing := by
  cases collector <;> rfl

section At

variable {l : List Statement} {all : List Target} {s : Statement} {i : Nat}

theorem getElem?_aimed_self (h : l[i]? = some s)
    (hs : ∀ t, s.instruction.aimed t = s.instruction) :
    (l.mapIdx (Statement.aimed all))[i]? = some s := by
  rw [List.getElem?_mapIdx, h, Option.map_some, aimed_eq_self hs]

theorem getElem?_aimed {ts : List Target} {t : Target} (h : l[t.index]? = some s)
    (hs : Settles all ts) (ht : t ∈ ts) :
    (l.mapIdx (Statement.aimed all))[t.index]? = some (s.as (s.instruction.aimed t)) := by
  rw [List.getElem?_mapIdx, h, Option.map_some, hs.aimed ht]

mutual

/-- A list holds a nest with its targets once these are put in. -/
theorem Nest.at_aimed : ∀ (n : Nest) (i : Nat), HasAt l i n.statements →
    Settles all (n.targets i) → n.At (l.mapIdx (Statement.aimed all)) i
  | .nil, i, hl, hs => trivial
  | .plain s hp rest, i, hl, hs =>
    ⟨getElem?_aimed_self hl.head (aimed_plain hp), rest.at_aimed (i + 1) hl.tail hs⟩
  | .conditional s test next body branches e rest, i, hl, hs => by
    have hs' : ∀ t ∈ body.targets (i + 1) ++ (branches.targets (i + 1 + body.size)
        (i + 1 + body.size + branches.size) ++ rest.targets _), _ :=
      fun t ht => hs t (List.mem_cons_of_mem _ ht)
    have hopen := getElem?_aimed (t := ⟨i, _, _⟩) hl.head hs List.mem_cons_self
    refine ⟨hopen, body.at_aimed _ hl.tail.left fun t ht => hs' t ?_,
      branches.at_aimed _ _ hl.tail.right.left fun t ht => hs' t ?_,
      getElem?_aimed_self hl.tail.right.right.head fun _ => rfl,
      rest.at_aimed _ hl.tail.right.right.tail fun t ht => hs' t ?_⟩
    · exact List.mem_append_left _ ht
    · exact List.mem_append_right _ (List.mem_append_left _ ht)
    · exact List.mem_append_right _ (List.mem_append_right _ ht)
  | .loop s head stop body e rest, i, hl, hs => by
    have hopen := getElem?_aimed (t := ⟨i, _, _⟩) hl.head hs List.mem_cons_self
    refine ⟨hopen, body.at_aimed _ hl.tail.left fun t ht => hs t ?_,
      getElem?_aimed_self hl.tail.right.head fun _ => rfl,
      rest.at_aimed _ hl.tail.right.tail fun t ht => hs t ?_⟩
    · exact List.mem_cons_of_mem _ (List.mem_append_left _ ht)
    · exact List.mem_cons_of_mem _ (List.mem_append_right _ ht)
  | .collecting s collector body e rest, i, hl, hs => by
    refine ⟨getElem?_aimed_self hl.head (aimed_opening collector),
      body.at_aimed _ hl.tail.left fun t ht => hs t ?_,
      getElem?_aimed_self hl.tail.right.head (aimed_closing collector),
      rest.at_aimed _ hl.tail.right.tail fun t ht => hs t ?_⟩
    · exact List.mem_append_left _ ht
    · exact List.mem_append_right _ ht

theorem Branches.at_aimed : ∀ (b : Branches) (j stop : Nat), HasAt l j b.statements →
    Settles all (b.targets j stop) → b.At (l.mapIdx (Statement.aimed all)) j stop
  | .nil, j, stop, hl, hs => trivial
  | .elseBranch s test next stop' body more, j, stop, hl, hs => by
    have hopen := getElem?_aimed (t := ⟨j, _, _⟩) hl.head hs List.mem_cons_self
    refine ⟨hopen, body.at_aimed _ hl.tail.left fun t ht => hs t ?_,
      more.at_aimed _ _ hl.tail.right fun t ht => hs t ?_⟩
    · exact List.mem_cons_of_mem _ (List.mem_append_left _ ht)
    · exact List.mem_cons_of_mem _ (List.mem_append_right _ ht)
  | .otherwise s stop' body, j, stop, hl, hs => by
    have hopen := getElem?_aimed (t := ⟨j, _, _⟩) hl.head hs List.mem_cons_self
    exact ⟨hopen, body.at_aimed _ hl.tail fun t ht => hs t (List.mem_cons_of_mem _ ht)⟩

end

end At

/-- Linking succeeds on the list of a nest, and the linked list holds the nest. -/
theorem Nest.link_statements (n : Nest) :
    ∃ linked, link n.statements = .ok linked ∧ n.At linked 0 := by
  obtain ⟨ts, hts, hread⟩ := n.reads 0
  refine ⟨_, (hread []).link_eq, n.at_aimed 0 (List.prefix_refl _) ?_⟩
  intro t ht
  exact (n.targets_inOrder 0).find_eq hts ht

end Templating
