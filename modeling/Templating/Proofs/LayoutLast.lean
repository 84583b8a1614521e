import Mathlib.Data.List.Forall2
import Templating.Proofs.StructuredRun

/-!
Where a compiled template renders its layout: after everything else, if at all.
-/
namespace Templating

def Directive.Yields (P : Instruction → Prop) (result : Except DirectiveError Instruction) : Prop :=
  ∀ instruction, result = .ok instruction → P instruction

namespace Directive.Yields

variable {P : Instruction → Prop}

theorem mono {Q : Instruction → Prop} {result : Except DirectiveError Instruction}
    (h : Yields P result) (hPQ : ∀ i, P i → Q i) : Yields Q result :=
  fun i hi => hPQ i (h i hi)

theorem ok {instruction : Instruction} (h : P instruction) : Yields P (.ok instruction) := by
  intro i hi
  obtain rfl := Except.ok.inj hi
  exact h

theorem error (e : DirectiveError) : Yields P (.error e) := by
  intro i hi
  cases hi

theorem bind {α : Type} {x : Except DirectiveError α} {f : α → Except DirectiveError Instruction}
    (h : ∀ a, Yields P (f a)) : Yields P (x >>= f) := by
  cases x with
  | error e => exact error e
  | ok a => exact h a

end Directive.Yields

abbrev NoLayout (result : Except DirectiveError Instruction) : Prop :=
  Directive.Yields (·.isLayout = false) result

def Instruction.isOfGrammar : Instruction → Bool
  | tag .. | closeTag _ | shortcut .. | closeShortcut _ => true
  | _ => false

theorem Instruction.isLayout_of_isOfGrammar (i : Instruction) (h : i.isOfGrammar = true) :
    i.isLayout = false := by
  cases i <;> first | rfl | cases h

namespace Directive

theorem loopHeader_yields {P : Instruction → Prop} {kind : LoopKind}
    (h : ∀ value key source, P (.loop kind value key source none)) (text tail : List Char) :
    Yields P (loopHeader text tail kind) := by
  unfold loopHeader
  dsimp only
  split
  · exact .error _
  · split
    · exact .error _
    · exact .bind fun _ => .ok (h _ _ _)

theorem noLayout_builtin? {text : List Char} (h : afterWord? "extends" text = none)
    {result : Except DirectiveError Instruction} (hresult : builtin? text = some result) :
    NoLayout result := by
  unfold builtin? at hresult
  rw [h] at hresult
  dsimp only at hresult
  repeat' split at hresult
  all_goals cases hresult
  all_goals first
    | exact .ok rfl
    | exact .bind fun _ => .ok rfl
    | exact loopHeader_yields (fun _ _ _ => rfl) _ _

theorem yields_tagForm? {text : List Char} {form : Form}
    {result : Except DirectiveError Instruction} (hresult : tagForm? text form = some result) :
    Yields (·.isOfGrammar = true) result := by
  unfold tagForm? at hresult
  split at hresult
  · cases hresult
    dsimp only
    split
    · exact .bind fun _ => .bind fun _ => .ok rfl
    · exact .bind fun _ => .ok rfl
  · split at hresult
    · cases hresult
      exact .bind fun _ => .ok rfl
    · split at hresult
      · cases hresult
        exact .ok rfl
      · cases hresult

theorem yields_shortcutForm? {text body : List Char} {form : Form}
    {result : Except DirectiveError Instruction}
    (hresult : shortcutForm? text body form = some result) :
    Yields (·.isOfGrammar = true) result := by
  unfold shortcutForm? at hresult
  obtain ⟨after, -, hresult⟩ := Option.bind_eq_some_iff.mp hresult
  split at hresult
  · split at hresult
    · cases hresult
    · cases hresult
      dsimp only
      split
      · exact .bind fun _ => .bind fun _ => .ok rfl
      · exact .bind fun _ => .ok rfl
  · split at hresult
    · cases hresult
    · cases hresult
      exact .bind fun _ => .ok rfl

theorem yields_shortcutForms? {text : List Char} {forms : List Form}
    {result : Except DirectiveError Instruction}
    (hresult : shortcutForms? text forms = some result) : Yields (·.isOfGrammar = true) result := by
  unfold shortcutForms? at hresult
  split at hresult
  · obtain ⟨form, -, hform⟩ := List.exists_of_findSome?_eq_some hresult
    exact yields_shortcutForm? hform
  · obtain ⟨aliasName, -, rfl⟩ := Option.map_eq_some_iff.mp hresult
    exact .ok rfl

/-- Where no builtin form fits, a directive is one of the grammar's or an expression. -/
theorem yields_read {P : Instruction → Prop} {grammar : Grammar} {directive : String}
    (hbuiltin : ∀ result, builtin? directive.toList = some result → Yields P result)
    (hgrammar : ∀ i, i.isOfGrammar = true → P i) (hemit : ∀ e, P (.emit e)) :
    Yields P (read grammar directive) := by
  unfold read
  dsimp only
  split
  · exact .error _
  · cases hform : builtin? directive.toList with
    | some result => exact hbuiltin result hform
    | none =>
      cases htag : grammar.tags.findSome? (tagForm? directive.toList) with
      | some result =>
        obtain ⟨form, -, hform⟩ := List.exists_of_findSome?_eq_some htag
        exact (yields_tagForm? hform).mono hgrammar
      | none =>
        cases hshortcut : shortcutForms? directive.toList grammar.shortcuts with
        | some result => exact (yields_shortcutForms? hshortcut).mono hgrammar
        | none => exact .bind fun e => .ok (hemit e)

theorem namesLayout_of_read {grammar : Grammar} {directive : String} {instruction : Instruction}
    (h : read grammar directive = .ok instruction) (hlayout : instruction.isLayout = true) :
    namesLayout directive = true := by
  cases hword : afterWord? "extends" directive.toList with
  | some rest =>
    unfold afterWord? at hword
    unfold namesLayout
    split at hword
    · rename_i c tail heq
      rw [heq]
      split at hword
      · simpa
      · cases hword
    · cases hword
  | none =>
    exfalso
    have hno : NoLayout (read grammar directive) :=
      yields_read (fun _ => noLayout_builtin? hword) Instruction.isLayout_of_isOfGrammar
        fun _ => rfl
    rw [hno instruction h] at hlayout
    cases hlayout

end Directive

theorem index_of_layout {segments : List Segment} {i : Nat} {segment : Segment}
    (h : (layoutLast segments)[i]? = some segment) (hlayout : segment.isLayout = true) :
    i + 1 = (layoutLast segments).length := by
  unfold layoutLast at h ⊢
  rw [List.length_append]
  have hlength : (segments.filter Segment.isLayout).getLast?.toList.length ≤ 1 := by
    cases (segments.filter Segment.isLayout).getLast? <;> simp
  by_cases hi : i < (segments.filter (!·.isLayout)).length
  · rw [List.getElem?_append_left hi] at h
    have hmem := List.mem_of_getElem? h
    simp [hlayout] at hmem
  · rw [List.getElem?_append_right (by omega)] at h
    have hlt := (List.getElem?_eq_some_iff.mp h).1
    omega

theorem Segment.isLayout_of_statement {grammar : Grammar} {path : String} {segment : Segment}
    {s : Statement} (h : segment.statement grammar path = .ok s)
    (hlayout : s.instruction.isLayout = true) : segment.isLayout = true := by
  cases segment with
  | text t line offset =>
    obtain rfl := Except.ok.inj h
    cases hlayout
  | directive d line offset =>
    unfold Segment.statement at h
    dsimp only at h
    cases hread : Directive.read grammar d with
    | error e => simp [hread] at h
    | ok instruction =>
      simp only [hread, Except.ok.injEq] at h
      subst h
      exact Directive.namesLayout_of_read hread hlayout

theorem forall₂_of_mapM {α β ε : Type} {f : α → Except ε β} : ∀ {xs : List α} {ys : List β},
    xs.mapM f = .ok ys → List.Forall₂ (fun x y => f x = .ok y) xs ys
  | [], ys, h => by
    obtain rfl : [] = ys := Except.ok.inj h
    exact .nil
  | x :: xs, ys, h => by
    rw [List.mapM_cons] at h
    cases hx : f x with
    | error e => simp [hx, bind, Except.bind] at h
    | ok y =>
      cases hxs : xs.mapM f with
      | error e => simp [hx, hxs, bind, Except.bind] at h
      | ok rest =>
        simp only [hx, hxs, bind, Except.bind, pure, Except.pure, Except.ok.injEq] at h
        subst h
        exact .cons hx (forall₂_of_mapM hxs)

/-- A linked statement is the one that was read, with its target if it has one. -/
theorem exists_of_link {statements linked : List Statement} (h : link statements = .ok linked)
    {i : Nat} {s : Statement} (hs : linked[i]? = some s) :
    ∃ s' targets, statements[i]? = some s' ∧ s = s'.aimed targets i := by
  unfold link at h
  cases ht : targetsFrom 0 [] statements with
  | error e => simp [ht, Except.map] at h
  | ok targets =>
    simp only [ht, Except.map, Except.ok.injEq] at h
    rw [← h, List.getElem?_mapIdx] at hs
    obtain ⟨s', hs', rfl⟩ := Option.map_eq_some_iff.mp hs
    exact ⟨s', targets, hs', rfl⟩

/-- The statements of a compiled template are those of the segments of its source. -/
theorem exists_segment {grammar : Grammar} {path source : String} {template : Template}
    (h : Template.compile grammar path source = .ok template) {i : Nat} {s : Statement}
    (hs : template.statements[i]? = some s) :
    ∃ segment s' targets, (segmentsOf source)[i]? = some segment ∧
      segment.statement grammar path = .ok s' ∧ s = s'.aimed targets i := by
  obtain ⟨statements, linked, hread, hlink, rfl⟩ := compile_eq_ok h
  obtain ⟨s', targets, hs', rfl⟩ := exists_of_link hlink hs
  obtain ⟨hi, rfl⟩ := List.getElem?_eq_some_iff.mp hs'
  have hall := forall₂_of_mapM hread
  have hi' : i < (segmentsOf source).length := by rwa [hall.length_eq]
  exact ⟨_, _, targets, List.getElem?_eq_getElem hi', hall.get hi' hi, rfl⟩

/-- As many statements as segments. -/
theorem length_statements {grammar : Grammar} {path source : String} {template : Template}
    (h : Template.compile grammar path source = .ok template) :
    template.statements.length = (segmentsOf source).length := by
  obtain ⟨statements, linked, hread, hlink, rfl⟩ := compile_eq_ok h
  rw [length_link hlink, (forall₂_of_mapM hread).length_eq]

theorem isLayout_aimed (targets : List Target) (i : Nat) (s : Statement) :
    (s.aimed targets i).instruction.isLayout = s.instruction.isLayout := by
  unfold Statement.aimed
  split
  · cases h : s.instruction <;> simp [Instruction.aimed, Instruction.isLayout]
  · rfl

/-- A compiled template renders its layout with its last statement, if with any. -/
theorem layout_is_last {grammar : Grammar} {path source : String} {template : Template}
    (h : Template.compile grammar path source = .ok template) {i : Nat} {s : Statement}
    (hs : template.statements[i]? = some s) (hlayout : s.instruction.isLayout = true) :
    i + 1 = template.statements.length := by
  obtain ⟨segment, s', targets, hsegment, hread, rfl⟩ := exists_segment h hs
  rw [isLayout_aimed] at hlayout
  rw [length_statements h]
  exact index_of_layout hsegment (Segment.isLayout_of_statement hread hlayout)

end Templating
