import Mathlib.Data.List.Nodup
import Mathlib.Data.Prod.Lex
import Templating.Proofs.TagForms

/-!
The order in which the forms of a grammar come in. Tags are tried in that order, but no text is a
use of two of them, as long as their names are valid and differ. Shortcuts are tried in an order of
their own, in which different aliases have different places. So the order makes no difference to
what templates are compiled to. Builtin forms come before all of them and need no grammar.
-/
namespace Templating
open Text

inductive Addition where
  | tag (form : Form)
  | shortcut (form : Form)

namespace Addition

def tag? : Addition → Option Form
  | tag form => some form
  | shortcut _ => none

def shortcut? : Addition → Option Form
  | tag _ => none
  | shortcut form => some form

def tags (additions : List Addition) : List Form := additions.filterMap tag?

def shortcuts (additions : List Addition) : List Form := additions.filterMap shortcut?

/-- Tags have valid names, and no two of them, nor two shortcuts, have the same. -/
structure Distinct (additions : List Addition) : Prop where
  valid : ∀ form ∈ tags additions, Registry.isValidName form.name = true
  tags : ((tags additions).map Form.name).Nodup
  shortcuts : ((shortcuts additions).map Form.name).Nodup

end Addition

namespace Grammar

def add (g : Grammar) : Addition → Grammar
  | .tag form => g.tag form.name form.content
  | .shortcut form => g.shortcut form.name form.content

def ofAdditions (additions : List Addition) : Grammar := additions.foldl add {}

theorem tags_foldl_add (additions : List Addition) (g : Grammar) :
    (additions.foldl add g).tags = g.tags ++ Addition.tags additions := by
  induction additions generalizing g with
  | nil => simp [Addition.tags]
  | cons addition additions ih =>
    cases addition with
    | tag form =>
      have htags : Addition.tags (.tag form :: additions) = form :: Addition.tags additions := rfl
      simp [ih, add, tag, htags]
    | shortcut form => exact ih _

theorem shortcuts_foldl_add (additions : List Addition) (g : Grammar) :
    (additions.foldl add g).shortcuts =
      (Addition.shortcuts additions).foldl (fun forms form => form.insert forms) g.shortcuts := by
  induction additions generalizing g with
  | nil => rfl
  | cons addition additions ih =>
    cases addition with
    | tag form => exact ih _
    | shortcut form => exact ih _

end Grammar

namespace Form

/-- The place of a shortcut: the size of its alias, larger ones first, and then the alias. -/
def place (form : Form) : ℕᵒᵈ ×ₗ String :=
  toLex (OrderDual.toDual (utf8Size form.name.toList), form.name)

theorem before_iff (a b : Form) : a.before b = true ↔ a.place < b.place := by
  rw [place, place, Prod.Lex.toLex_lt_toLex]
  simp only [before, Bool.or_eq_true, Bool.and_eq_true, decide_eq_true_eq, beq_iff_eq,
    OrderDual.toDual_lt_toDual, EmbeddingLike.apply_eq_iff_eq]

theorem place_ne {a b : Form} (h : a.name ≠ b.name) : a.place ≠ b.place := fun heq =>
  h (congrArg (fun p => (ofLex p).2) heq)

def InOrder (forms : List Form) : Prop := forms.Pairwise (·.place < ·.place)

theorem InOrder.insert {forms : List Form} (h : InOrder forms) {form : Form}
    (hnew : ∀ other ∈ forms, form.name ≠ other.name) : InOrder (form.insert forms) := by
  induction forms with
  | nil => exact List.pairwise_singleton _ _
  | cons other forms ih =>
    obtain ⟨hother, hforms⟩ := List.pairwise_cons.mp h
    obtain ⟨hne, hnew⟩ := List.forall_mem_cons.mp hnew
    unfold Form.insert
    split
    · rename_i hbefore
      have hlt := (before_iff form other).mp hbefore
      apply List.pairwise_cons.mpr
      refine ⟨List.forall_mem_cons.mpr ⟨hlt, fun later hlater => ?_⟩, h⟩
      exact hlt.trans (hother later hlater)
    · rename_i hbefore
      rw [before_iff, not_lt] at hbefore
      have hlt : other.place < form.place := lt_of_le_of_ne hbefore (place_ne hne).symm
      apply List.pairwise_cons.mpr
      refine ⟨fun later hlater => ?_, ih hforms hnew⟩
      rcases List.mem_cons.mp ((Form.insert_perm form forms).mem_iff.mp hlater) with rfl | hlater
      · exact hlt
      · exact hother later hlater

/-- Forms that come in one after the other are all there, each at its place. -/
theorem foldl_insert {additions forms : List Form} (h : InOrder forms)
    (hnames : ((additions ++ forms).map Form.name).Nodup) :
    InOrder (additions.foldl (fun forms form => form.insert forms) forms) ∧
      (additions.foldl (fun forms form => form.insert forms) forms).Perm (additions ++ forms) := by
  induction additions generalizing forms with
  | nil => exact ⟨h, .refl _⟩
  | cons form additions ih =>
    have hperm : (additions ++ form.insert forms).Perm (form :: additions ++ forms) :=
      ((Form.insert_perm form forms).append_left additions).trans List.perm_middle
    have hnew : ∀ other ∈ forms, form.name ≠ other.name := by
      intro other hother heq
      have hfirst := (List.nodup_cons.mp hnames).1
      apply hfirst
      rw [heq]
      exact List.mem_map_of_mem (List.mem_append_right additions hother)
    have hrest : ((additions ++ form.insert forms).map Form.name).Nodup :=
      (hperm.map Form.name).nodup_iff.mpr hnames
    obtain ⟨horder, hall⟩ := ih (h.insert hnew) hrest
    exact ⟨horder, hall.trans hperm⟩

theorem foldl_insert_perm {as bs : List Form} (h : as.Perm bs) (hnames : (as.map Form.name).Nodup) :
    as.foldl (fun forms form => form.insert forms) [] =
      bs.foldl (fun forms form => form.insert forms) [] := by
  have hnames' : (bs.map Form.name).Nodup := (h.map Form.name).nodup_iff.mp hnames
  rw [← List.append_nil as] at hnames
  rw [← List.append_nil bs] at hnames'
  obtain ⟨horder, hall⟩ := foldl_insert List.Pairwise.nil hnames
  obtain ⟨horder', hall'⟩ := foldl_insert List.Pairwise.nil hnames'
  rw [List.append_nil] at hall hall'
  apply List.Perm.eq_of_pairwise _ horder horder' (hall.trans (h.trans hall'.symm))
  intro a b _ _ hab hba
  exact absurd (hab.trans hba) (lt_irrefl _)

end Form

/-- Where at most one element gives something, the order makes no difference to what is found. -/
theorem findSome?_perm {α β : Type} {f : α → Option β} {l l' : List α} (h : l.Perm l')
    (hone : ∀ a ∈ l, ∀ b ∈ l, f a ≠ none → f b ≠ none → a = b) :
    l.findSome? f = l'.findSome? f := by
  induction h with
  | nil => rfl
  | cons a _ ih =>
    rw [List.findSome?_cons, List.findSome?_cons, ih]
    intro x hx y hy
    exact hone x (List.mem_cons_of_mem a hx) y (List.mem_cons_of_mem a hy)
  | swap a b l =>
    have hpair := hone a (by simp) b (by simp)
    rw [List.findSome?_cons, List.findSome?_cons, List.findSome?_cons, List.findSome?_cons]
    cases ha : f a with
    | none => rfl
    | some x =>
      cases hb : f b with
      | none => rfl
      | some y =>
        have heq := hpair (by simp [ha]) (by simp [hb])
        rw [heq, hb] at ha
        exact ha
  | trans hl _ ih ih' =>
    rw [ih hone]
    apply ih'
    intro x hx y hy
    exact hone x (hl.mem_iff.mpr hx) y (hl.mem_iff.mpr hy)

namespace Directive

/-- How a use of a tag begins: with its name or its opening and a blank, or it is the end. -/
theorem cases_of_tagForm? {text : List Char} {form : Form} (h : tagForm? text form ≠ none) :
    (∃ c rest, isBlank c = true ∧ text = (form.name ++ ":content").toList ++ c :: rest) ∨
    (∃ c rest, isBlank c = true ∧ text = form.name.toList ++ c :: rest) ∨
    text = ("end" ++ form.name).toList := by
  unfold tagForm? at h
  rw [afterContentForm?_eq] at h
  cases hcontent : afterWord? (form.name ++ ":content") text with
  | some tail =>
    obtain ⟨c, rest, hc, htext, -⟩ := afterWord?_eq_some_iff.mp hcontent
    exact .inl ⟨c, rest, hc, htext⟩
  | none =>
    cases hcall : afterWord? form.name text with
    | some tail =>
      obtain ⟨c, rest, hc, htext, -⟩ := afterWord?_eq_some_iff.mp hcall
      exact .inr (.inl ⟨c, rest, hc, htext⟩)
    | none =>
      rw [hcontent, hcall] at h
      dsimp only at h
      split at h
      · rename_i hclose
        rw [← String.toList_append] at hclose
        exact .inr (.inr hclose.2)
      · exact absurd rfl h

/-- A text is not a use of two tags. -/
theorem tagForm?_unique {text : List Char} {a b : Form} (ha : Registry.isValidName a.name = true)
    (hb : Registry.isValidName b.name = true) (hfits : tagForm? text a ≠ none)
    (hfits' : tagForm? text b ≠ none) : a.name = b.name := by
  have hword := Registry.isWord_of_isValidName ha
  rcases cases_of_tagForm? hfits with ⟨c, rest, hc, rfl⟩ | ⟨c, rest, hc, rfl⟩ | rfl
  · by_contra hne
    have hopening : b.name ++ ":content" ≠ a.name ++ ":content" := fun heq =>
      hne ((String.append_left_inj _).mp heq).symm
    exact hfits' (tagForm?_append_other hb (isWord_append_content ha) hc
      (ne_append_content hb a.name).symm hopening)
  · by_contra hne
    exact hfits' (tagForm?_append_other hb hword hc (Ne.symm hne) (ne_append_content ha b.name))
  · have hend : IsWord ("end" ++ a.name).toList := by
      rw [String.toList_append]
      exact IsWord.append (by decide) hword
    rw [tagForm?_of_isWord hend] at hfits'
    split at hfits'
    · rename_i hclose
      exact (String.append_right_inj _).mp hclose.2
    · exact absurd rfl hfits'

variable {directive : String}

/-- A builtin form is read as it is, whatever tags and shortcuts there are. -/
theorem read_of_builtin? {result : Except DirectiveError Instruction}
    (h : builtin? directive.toList = some result) (g : Grammar) : read g directive = result := by
  have hne : directive.toList ≠ [] := by
    intro hnil
    rw [hnil] at h
    cases h
  rw [read_eq hne, h]
  rfl

/-- Without tags and shortcuts any other directive is an expression. -/
theorem read_without_forms (hne : directive.toList ≠ []) (h : builtin? directive.toList = none) :
    read {} directive = (return .emit (← expression directive.toList directive.toList)) := by
  have hshortcuts : shortcutForms? directive.toList [] = none := by
    unfold shortcutForms?
    split
    · rfl
    · simp [closedShortcut?]
  rw [read_eq hne, h, hshortcuts]
  rfl

theorem isSome_builtin?_of_read {instruction : Instruction}
    (h : read {} directive = .ok instruction) (hother : ∀ e, instruction ≠ .emit e) :
    (builtin? directive.toList).isSome = true := by
  by_contra hnone
  have hne : directive.toList ≠ [] := by
    intro hnil
    simp [read, hnil] at h
  rw [read_without_forms hne (by simpa using hnone)] at h
  cases hexpression : expression directive.toList directive.toList with
  | error error => simp [hexpression, bind, Except.bind] at h
  | ok e =>
    have hemit : Instruction.emit e = instruction := by
      simpa [hexpression, bind, Except.bind, pure, Except.pure] using h
    exact hother e hemit.symm

end Directive

namespace Addition.Distinct

variable {as bs : List Addition}

theorem read_eq_of_perm (h : Distinct as) (hperm : as.Perm bs) (directive : String) :
    Directive.read (.ofAdditions as) directive = Directive.read (.ofAdditions bs) directive := by
  have htags : (Addition.tags as).Perm (Addition.tags bs) := hperm.filterMap tag?
  have hshortcuts : (Grammar.ofAdditions as).shortcuts = (Grammar.ofAdditions bs).shortcuts := by
    rw [Grammar.ofAdditions, Grammar.ofAdditions, Grammar.shortcuts_foldl_add,
      Grammar.shortcuts_foldl_add]
    exact Form.foldl_insert_perm (hperm.filterMap shortcut?) h.shortcuts
  have hfound : (Grammar.ofAdditions as).tags.findSome? (Directive.tagForm? directive.toList) =
      (Grammar.ofAdditions bs).tags.findSome? (Directive.tagForm? directive.toList) := by
    rw [Grammar.ofAdditions, Grammar.ofAdditions, Grammar.tags_foldl_add, Grammar.tags_foldl_add]
    apply findSome?_perm (htags.append_left _)
    intro a ha b hb hfits hfits'
    have hname := Directive.tagForm?_unique (h.valid a ha) (h.valid b hb) hfits hfits'
    exact List.inj_on_of_nodup_map h.tags ha hb hname
  unfold Directive.read
  dsimp only
  rw [hshortcuts, hfound]

end Addition.Distinct

theorem Template.compile_congr {g g' : Grammar}
    (h : ∀ directive, Directive.read g directive = Directive.read g' directive)
    (path source : String) : compile g path source = compile g' path source := by
  have hsegment : Segment.statement g path = Segment.statement g' path := by
    funext segment
    cases segment with
    | text s line offset => rfl
    | directive s line offset => simp only [Segment.statement, h]
  unfold compile
  rw [hsegment]

/-- The order in which the forms of a grammar come in makes no difference to what templates are
compiled to. Where a directive is no plain expression to the grammar without forms, or is rejected
in a builtin form, it is read alike under every grammar. -/
theorem compile_regardless_of_order :
    (∀ as bs : List Addition, as.Perm bs → Addition.Distinct as → ∀ path source,
      Template.compile (.ofAdditions as) path source =
        Template.compile (.ofAdditions bs) path source) ∧
    (∀ directive instruction, Directive.read {} directive = .ok instruction →
      (∀ e, instruction ≠ .emit e) → ∀ g, Directive.read g directive = .ok instruction) ∧
    (∀ directive error, Directive.read {} directive = .error error →
      (Directive.builtin? directive.toList).isSome = true →
        ∀ g, Directive.read g directive = .error error) := by
  refine ⟨fun as bs hperm hdistinct path source => ?_, ?_, ?_⟩
  · exact Template.compile_congr (hdistinct.read_eq_of_perm hperm) path source
  · intro directive instruction hread hother g
    have hbuiltin := Directive.isSome_builtin?_of_read hread hother
    obtain ⟨result, hresult⟩ := Option.isSome_iff_exists.mp hbuiltin
    rw [Directive.read_of_builtin? hresult, ← hread, Directive.read_of_builtin? hresult]
  · intro directive error hread hbuiltin g
    obtain ⟨result, hresult⟩ := Option.isSome_iff_exists.mp hbuiltin
    rw [Directive.read_of_builtin? hresult, ← hread, Directive.read_of_builtin? hresult]

def nestedNames : List Addition :=
  [.tag ⟨"note", true⟩, .shortcut ⟨"page", false⟩, .tag ⟨"note.end", false⟩,
    .shortcut ⟨"page.info", true⟩]

theorem nestedNames_regardless_of_order :
    nestedNames.Perm nestedNames.reverse ∧ Addition.Distinct nestedNames ∧
    Template.compile (.ofAdditions nestedNames) "/p" "\x7b\x7b@page.info\x7d\x7d" =
      Template.compile (.ofAdditions nestedNames.reverse) "/p" "\x7b\x7b@page.info\x7d\x7d" ∧
    Directive.read {} "endblock" = .ok .closeBlock ∧
    Directive.read (.ofAdditions nestedNames) "endblock" = .ok .closeBlock ∧
    ∃ error, Directive.read {} "put 1" = .error error ∧
      Directive.read (.ofAdditions nestedNames) "put 1" = .error error := by
  obtain ⟨hcompile, hread, hrejected⟩ := compile_regardless_of_order
  have hperm : nestedNames.Perm nestedNames.reverse := (List.reverse_perm _).symm
  have hdistinct : Addition.Distinct nestedNames := by
    constructor <;> decide
  have hclose : Directive.read {} "endblock" = .ok .closeBlock := rfl
  have hput : Directive.read {} "put 1" = .error ⟨.invalidName "1" "put", 4⟩ := rfl
  refine ⟨hperm, hdistinct, hcompile _ _ hperm hdistinct _ _, hclose, ?_, _, hput, ?_⟩
  · exact hread _ _ hclose nofun _
  · exact hrejected _ _ hput (by decide +kernel) _

end Templating
