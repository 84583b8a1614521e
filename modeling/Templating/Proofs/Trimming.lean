import Mathlib.Data.List.TakeWhile
import Templating.Text.Blank

/-!
Blanks at either end of a text. They are all that trimming takes away, and it takes them all away.
-/
namespace Templating.Text

variable {cs gap before after : List Char}

def Blanks (cs : List Char) : Prop := ∀ c ∈ cs, isBlank c = true

instance (cs : List Char) : Decidable (Blanks cs) :=
  List.decidableBAll (fun c => isBlank c = true) cs

def BeginsSolid (cs : List Char) : Prop := ∃ c rest, cs = c :: rest ∧ isBlank c = false

theorem Blanks.reverse (h : Blanks cs) : Blanks cs.reverse :=
  fun c hc => h c (List.mem_reverse.mp hc)

theorem Blanks.append (h : Blanks cs) (h' : Blanks gap) : Blanks (cs ++ gap) :=
  fun c hc => (List.mem_append.mp hc).elim (h c) (h' c)

theorem BeginsSolid.append (h : BeginsSolid cs) (after : List Char) :
    BeginsSolid (cs ++ after) := by
  obtain ⟨c, rest, rfl, hc⟩ := h
  exact ⟨c, rest ++ after, rfl, hc⟩

theorem BeginsSolid.ne_nil (h : BeginsSolid cs) : cs ≠ [] := by
  obtain ⟨c, rest, rfl, -⟩ := h
  exact List.cons_ne_nil c rest

theorem trimStart_append (hgap : Blanks gap) (h : BeginsSolid cs) : trimStart (gap ++ cs) = cs := by
  obtain ⟨c, rest, rfl, hc⟩ := h
  rw [trimStart, List.dropWhile_append_of_pos hgap, List.dropWhile_cons_of_neg (by simp [hc])]

theorem exists_trimStart (cs : List Char) : ∃ gap, Blanks gap ∧ cs = gap ++ trimStart cs :=
  ⟨cs.takeWhile isBlank, fun _ => List.mem_takeWhile_imp, List.takeWhile_append_dropWhile.symm⟩

theorem beginsSolid_trimStart (h : trimStart cs ≠ []) : BeginsSolid (trimStart cs) :=
  ⟨(trimStart cs).head h, (trimStart cs).tail, (List.cons_head_tail h).symm,
    List.head_dropWhile_not isBlank h⟩

theorem trimEnd_append (hgap : Blanks gap) (h : BeginsSolid cs.reverse) :
    trimEnd (cs ++ gap) = cs := by
  have hstart := trimStart_append hgap.reverse h
  rw [← List.reverse_append] at hstart
  rw [trimEnd, ← trimStart, hstart, List.reverse_reverse]

theorem exists_trimEnd (cs : List Char) : ∃ gap, Blanks gap ∧ cs = trimEnd cs ++ gap := by
  obtain ⟨gap, hgap, hcs⟩ := exists_trimStart cs.reverse
  refine ⟨gap.reverse, hgap.reverse, ?_⟩
  rw [trimEnd, ← trimStart, ← List.reverse_append, ← hcs, List.reverse_reverse]

/-- What lies between the blanks at both ends. -/
theorem trim_append (hbefore : Blanks before) (hafter : Blanks after) (h : BeginsSolid cs)
    (h' : BeginsSolid cs.reverse) : trim (before ++ cs ++ after) = cs := by
  rw [trim, List.append_assoc, trimStart_append hbefore (h.append after), trimEnd_append hafter h']

theorem exists_around_trim (cs : List Char) :
    ∃ before after, Blanks before ∧ Blanks after ∧ cs = before ++ trim cs ++ after := by
  obtain ⟨before, hbefore, hstart⟩ := exists_trimStart cs
  obtain ⟨after, hafter, hend⟩ := exists_trimEnd (trimStart cs)
  refine ⟨before, after, hbefore, hafter, ?_⟩
  rw [trim, List.append_assoc, ← hend, ← hstart]

end Templating.Text
