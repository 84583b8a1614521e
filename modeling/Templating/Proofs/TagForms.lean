import Templating.Proofs.Balance
import Templating.Proofs.FirstWords
import Templating.Proofs.KnownTags
import Templating.Proofs.Rereading

/-!
The forms that tags and shortcuts add to the language. Builtin forms are tried first, then those of
the tags and at last those of the shortcuts, the longest alias first. In an engine that could be
built no form is taken for another of its kind, and only a few names give forms that an earlier kind
takes.
-/
namespace Templating
open Text

theorem Form.eq_of {a b : Form} (hname : a.name = b.name) (hcontent : a.content = b.content) :
    a = b := by
  cases a
  cases b
  cases hname
  cases hcontent
  rfl

/-- The order in which aliases are tried. -/
def LongestFirst (forms : List Form) : Prop :=
  forms.Pairwise fun a b => utf8Size b.name.toList ≤ utf8Size a.name.toList

/-- Names are well formed and tell the forms of one kind apart. -/
structure Grammar.WellFormed (g : Grammar) : Prop where
  names : ∀ form ∈ g.tags, Registry.isValidName form.name = true
  tags : ∀ form ∈ g.tags, ∀ other ∈ g.tags, other.name = form.name → other = form
  aliases : ∀ form ∈ g.shortcuts, form.name ≠ "" ∧ IsWord form.name.toList
  shortcuts : ∀ form ∈ g.shortcuts, ∀ other ∈ g.shortcuts, other.name = form.name → other = form
  longestFirst : LongestFirst g.shortcuts

theorem LongestFirst.insert {forms : List Form} (h : LongestFirst forms) (form : Form) :
    LongestFirst (form.insert forms) := by
  induction forms with
  | nil => exact List.pairwise_singleton _ _
  | cons other forms ih =>
    obtain ⟨hother, hforms⟩ := List.pairwise_cons.mp h
    unfold Form.insert
    split
    · rename_i hbefore
      have hle : utf8Size other.name.toList ≤ utf8Size form.name.toList := by
        simp only [Form.before, Bool.or_eq_true, Bool.and_eq_true, decide_eq_true_eq,
          beq_iff_eq] at hbefore
        omega
      refine List.pairwise_cons.mpr ⟨List.forall_mem_cons.mpr ⟨hle, fun b hb => ?_⟩, h⟩
      exact (hother b hb).trans hle
    · rename_i hbefore
      have hle : utf8Size form.name.toList ≤ utf8Size other.name.toList := by
        simp only [Form.before, Bool.or_eq_true, decide_eq_true_eq] at hbefore
        omega
      refine List.pairwise_cons.mpr ⟨fun b hb => ?_, ih hforms⟩
      rcases List.mem_cons.mp ((Form.insert_perm form forms).mem_iff.mp hb) with rfl | hb
      · exact hle
      · exact hother b hb

theorem Registry.longestFirst_grammar (tags : Registry)
    (shortcuts : List (String × ShortcutTarget)) :
    LongestFirst (tags.grammar shortcuts).shortcuts := by
  have hkept (g : Grammar) (hg : LongestFirst g.shortcuts) :
      LongestFirst (shortcuts.foldl (fun g entry =>
        g.shortcut entry.1 (tags.acceptsContent entry.2.tag)) g).shortcuts := by
    induction shortcuts generalizing g with
    | nil => exact hg
    | cons entry shortcuts ih => exact ih _ (hg.insert _)
  rw [grammar, foldl_tag]
  exact hkept _ List.Pairwise.nil

namespace Directive

/-- A result that is found before those of all other elements is the one that is found. -/
theorem findSome?_eq_of_first {α β : Type} {R : α → α → Prop} {f : α → Option β} {l : List α}
    {a : α} {b : β} (hl : l.Pairwise R) (ha : a ∈ l) (hfound : f a = some b)
    (hother : ∀ x ∈ l, x ≠ a → R x a → f x = none) : l.findSome? f = some b := by
  induction l with
  | nil => cases ha
  | cons x xs ih =>
    obtain ⟨hx, hxs⟩ := List.pairwise_cons.mp hl
    by_cases heq : x = a
    · rw [List.findSome?_cons, heq, hfound]
    · have ha : a ∈ xs := (List.mem_cons.mp ha).resolve_left (Ne.symm heq)
      rw [List.findSome?_cons, hother x List.mem_cons_self heq (hx a ha)]
      exact ih hxs ha fun y hy => hother y (List.mem_cons_of_mem x hy)

variable {g : Grammar} {directive : String} {result : Except DirectiveError Instruction}

theorem read_eq (h : directive.toList ≠ []) :
    read g directive = ((builtin? directive.toList).or
      ((g.tags.findSome? (tagForm? directive.toList)).or
        (shortcutForms? directive.toList g.shortcuts))).getD
          (return .emit (← expression directive.toList directive.toList)) := by
  rw [read, if_neg]
  simpa using h

/-- Builtin forms call nothing. -/
theorem not_builtin?_of_read {instruction : Instruction} (hcalls : ¬Grammar.Offers {} instruction)
    (hread : read g directive = .ok instruction) : ¬(builtin? directive.toList).isSome = true := by
  intro hbuiltin
  obtain ⟨result, hresult⟩ := Option.isSome_iff_exists.mp hbuiltin
  have hne : directive.toList ≠ [] := by
    rintro hnil
    rw [hnil] at hresult
    cases hresult
  rw [read_eq hne, hresult] at hread
  exact hcalls (builtin?_offered hresult instruction hread)

/-- What calls something is read as long as no builtin form comes before it. -/
theorem read_eq_ok_iff {instruction : Instruction} (h : directive.toList ≠ [])
    (hcalls : ¬Grammar.Offers {} instruction)
    (hrest : (g.tags.findSome? (tagForm? directive.toList)).or
      (shortcutForms? directive.toList g.shortcuts) = some (.ok instruction)) :
    read g directive = .ok instruction ↔ ¬(builtin? directive.toList).isSome = true := by
  refine ⟨not_builtin?_of_read hcalls, fun hbuiltin => ?_⟩
  rw [read_eq h, hrest, Option.not_isSome_iff_eq_none.mp hbuiltin]
  rfl

theorem pathAndData_of_parse {text : String} {x : Expr} (hparse : Expr.parse text = .ok x)
    (whole : List Char) : pathAndData whole (trimStart text.toList) = .ok (x, none) := by
  obtain ⟨_, harguments, rfl⟩ := Expr.parseArguments_repeats 1 text x hparse
  simp [pathAndData, arguments, harguments, bind, Except.bind, pure, Except.pure]

section Tags

variable {form : Form} {first : String} {c : Char} {rest : List Char}

theorem isWord_append_content {name : String} (hname : Registry.isValidName name = true) :
    IsWord (name ++ ":content").toList := by
  rw [String.toList_append]
  exact (Registry.isWord_of_isValidName hname).append (by decide)

/-- No name of a tag ends with `:content`. -/
theorem ne_append_content {name : String} (hname : Registry.isValidName name = true)
    (other : String) : other ++ ":content" ≠ name := by
  rintro rfl
  have hcolon : ':' ∈ (other ++ ":content").toList := by simp
  exact absurd ((Registry.isValidName_parts hname).2 ':' hcolon) (by decide)

/-- A form of a tag fits a text of more than one word only if the text begins with its word. -/
theorem tagForm?_append_other (hname : Registry.isValidName form.name = true)
    (hfirst : IsWord first.toList) (hc : isBlank c = true) (hother : form.name ≠ first)
    (hcontent : form.name ++ ":content" ≠ first) :
    tagForm? (first.toList ++ c :: rest) form = none := by
  have hclosing : IsWord ("end".toList ++ form.name.toList) :=
    IsWord.append (by decide) (Registry.isWord_of_isValidName hname)
  rw [tagForm?, afterContentForm?_eq,
    afterWord?_append hfirst (isWord_append_content hname) hc rest, if_neg hcontent,
    afterWord?_append hfirst (Registry.isWord_of_isValidName hname) hc rest, if_neg hother]
  exact if_neg fun h => hclosing.ne_append_blank hc rest h.2

theorem tagForm?_call (hname : Registry.isValidName form.name = true) (hc : isBlank c = true)
    {text : String} {x : Expr} (hparse : Expr.parse text = .ok x) :
    tagForm? (form.name.toList ++ c :: text.toList) form =
      some (.ok (.tag form.name x none false)) := by
  have hword := Registry.isWord_of_isValidName hname
  rw [tagForm?, afterContentForm?_eq,
    afterWord?_append hword (isWord_append_content hname) hc _, if_neg (ne_append_content hname _),
    afterWord?_append hword hword hc _, if_pos rfl]
  simp only [pathAndData_of_parse hparse]
  rfl

theorem tagForm?_opening (hname : Registry.isValidName form.name = true) (hc : isBlank c = true)
    (hcontent : form.content = true) {text : String} {x : Expr}
    (hparse : Expr.parse text = .ok x) :
    tagForm? ((form.name ++ ":content").toList ++ c :: text.toList) form =
      some (.ok (.tag form.name x none true)) := by
  have hword := isWord_append_content hname
  rw [tagForm?, afterContentForm?_eq, afterWord?_append hword hword hc _, if_pos rfl]
  simp only [hcontent, pathAndData_of_parse hparse]
  rfl

/-- A text of one word can only be the end of a tag. -/
theorem tagForm?_of_isWord (hfirst : IsWord first.toList) :
    tagForm? first.toList form =
      if form.content = true ∧ first = "end" ++ form.name then
        some (.ok (.closeTag form.name))
      else none := by
  rw [tagForm?, afterContentForm?_eq, afterWord?_of_isWord hfirst, afterWord?_of_isWord hfirst]
  simp only [← String.toList_append, String.toList_inj]

end Tags

section Shortcuts

variable {form : Form} {text body : List Char}

theorem shortcutForm?_call (name : String) (content : Bool) (text : List Char) :
    shortcutForm? text name.toList ⟨name, content⟩ = some (.ok (.shortcut name none false)) := by
  have hname : name.toList.isPrefixOf? name.toList = some [] :=
    List.isPrefixOf?_eq_some_iff_append_eq.mpr (List.append_nil _)
  simp only [shortcutForm?, hname, bind, Option.bind]
  rfl

theorem shortcutForm?_opening (name : String) (text : List Char) :
    shortcutForm? text (name ++ ":content").toList ⟨name, true⟩ =
      some (.ok (.shortcut name none true)) := by
  have hname : name.toList.isPrefixOf? (name ++ ":content").toList = some ":content".toList :=
    List.isPrefixOf?_eq_some_iff_append_eq.mpr String.toList_append.symm
  have hcontent : ":content".toList.isPrefixOf? ":content".toList = some [] := by decide
  simp only [shortcutForm?, hname, hcontent, bind, Option.bind]
  rfl

theorem eq_nil_of_endsWord (hbody : IsWord body) {before rest : List Char}
    (h : before ++ rest = body) (hends : endsWord rest = true) : rest = [] := by
  cases rest with
  | nil => rfl
  | cons c cs =>
    have hc : isBlank c = false := hbody c (h ▸ List.mem_append_right _ List.mem_cons_self)
    simp [endsWord, hc] at hends

/-- A form of a shortcut fits a text of one word only if that is its alias, with `:content` or
without. -/
theorem shortcutForm?_of_isWord (hbody : IsWord body)
    (hfits : shortcutForm? text body form ≠ none) :
    body = form.name.toList ∨ body = (form.name ++ ":content").toList := by
  unfold shortcutForm? at hfits
  cases hname : form.name.toList.isPrefixOf? body with
  | none => simp [hname] at hfits
  | some after =>
    have hbefore : form.name.toList ++ after = body := List.append_eq_of_isPrefixOf?_eq_some hname
    cases hcontent : ":content".toList.isPrefixOf? after with
    | some rest =>
      have hafter : ":content".toList ++ rest = after :=
        List.append_eq_of_isPrefixOf?_eq_some hcontent
      have hends : endsWord rest = true := by
        by_contra hends
        refine hfits ?_
        simp only [hname, hcontent, Option.bind_eq_bind, Option.bind_some]
        exact if_pos (by simpa using hends)
      have hwhole : (form.name.toList ++ ":content".toList) ++ rest = body := by
        rw [List.append_assoc, hafter, hbefore]
      obtain rfl := eq_nil_of_endsWord hbody hwhole hends
      rw [List.append_nil] at hwhole
      exact .inr (hwhole.symm.trans String.toList_append.symm)
    | none =>
      have hends : endsWord after = true := by
        by_contra hends
        refine hfits ?_
        simp only [hname, hcontent, Option.bind_eq_bind, Option.bind_some]
        exact if_pos (by simpa using hends)
      obtain rfl := eq_nil_of_endsWord hbody hbefore hends
      rw [List.append_nil] at hbefore
      exact .inl hbefore.symm

/-- A text of one word that begins with `@` is left to the shortcuts. -/
theorem read_at {body : String} (hbody : IsWord body.toList)
    {result : Except DirectiveError Instruction}
    (hfound : g.shortcuts.findSome? (shortcutForm? ("@" ++ body).toList body.toList) =
      some result) :
    read g ("@" ++ body) = result := by
  have hword : IsWord ("@" ++ body).toList := by
    rw [String.toList_append]
    exact IsWord.append (by decide) hbody
  have htags : g.tags.findSome? (tagForm? ("@" ++ body).toList) = none := by
    refine List.findSome?_eq_none_iff.mpr fun form _ => ?_
    rw [tagForm?_of_isWord hword, if_neg]
    intro heq
    simpa using congrArg (fun s : String => s.toList.head?) heq.2
  have hat : ['@'].isPrefixOf? ("@" ++ body).toList = some body.toList := by
    rw [List.isPrefixOf?_eq_some_iff_append_eq, String.toList_append]
    rfl
  rw [read_eq (by simp), builtin?_at hbody, htags, shortcutForms?, hat]
  simp only [hfound, Option.none_or, Option.getD_some]

/-- The end of a shortcut names its alias. -/
theorem closedShortcut?_end {name : String} (hform : ⟨name, true⟩ ∈ g.shortcuts) :
    closedShortcut? ("end" ++ name).toList g.shortcuts = some name := by
  have hend : "end".toList.isPrefixOf? ("end" ++ name).toList = some name.toList := by
    rw [List.isPrefixOf?_eq_some_iff_append_eq, String.toList_append]
  cases hfind : g.shortcuts.find? fun form => form.content && form.name.toList == name.toList with
  | none =>
    have hnone := List.find?_eq_none.mp hfind _ hform
    simp at hnone
  | some form =>
    have hfound := List.find?_some hfind
    simp only [Bool.and_eq_true, beq_iff_eq, String.toList_inj] at hfound
    simp only [closedShortcut?, hend, hfind, Option.bind_eq_bind, Option.bind_some, hfound.2]
    rfl

end Shortcuts

end Directive

namespace Grammar.WellFormed

open Directive

variable {g : Grammar} (h : g.WellFormed)
include h

section Tags

variable {name : String} {content : Bool} (hform : ⟨name, content⟩ ∈ g.tags)
include hform

/-- The form of one tag only fits. -/
theorem findSome?_tagForm? {text : List Char} {result : Except DirectiveError Instruction}
    (hfound : tagForm? text ⟨name, content⟩ = some result)
    (hother : ∀ form ∈ g.tags, form.name ≠ name → tagForm? text form = none) :
    g.tags.findSome? (tagForm? text) = some result := by
  have hany : g.tags.Pairwise fun _ _ => True := List.pairwise_of_forall fun _ _ => trivial
  refine findSome?_eq_of_first hany hform hfound fun form hmem hne _ => ?_
  exact hother form hmem fun hname => hne (h.tags _ hform form hmem hname)

theorem read_call {text : String} {x : Expr} (hparse : Expr.parse text = .ok x) :
    read g (name ++ " " ++ text) = .ok (.tag name x none false) ↔
      ¬OpensBuiltin name text.toList := by
  have hvalid := h.names _ hform
  have hword := Registry.isWord_of_isValidName hvalid
  have hblank : isBlank ' ' = true := rfl
  have htext : (name ++ " " ++ text).toList = name.toList ++ ' ' :: text.toList := by simp
  have hfound : g.tags.findSome? (tagForm? (name.toList ++ ' ' :: text.toList)) =
      some (.ok (.tag name x none false)) :=
    h.findSome?_tagForm? hform (tagForm?_call hvalid hblank hparse) fun form hmem hother =>
      tagForm?_append_other (h.names form hmem) hword hblank hother (ne_append_content hvalid _)
  rw [read_eq_ok_iff (by simp) (by simp [Offers]) (by rw [htext, hfound, Option.some_or]), htext,
    isSome_builtin?_append hword hblank (Registry.beginsPlain_of_isValidName hvalid _)]

theorem read_opening (hcontent : content = true) {text : String} {x : Expr}
    (hparse : Expr.parse text = .ok x) :
    read g (name ++ ":content " ++ text) = .ok (.tag name x none true) ↔ name ≠ "include" := by
  have hvalid := h.names _ hform
  have hword := isWord_append_content hvalid
  have hblank : isBlank ' ' = true := rfl
  have htext : (name ++ ":content " ++ text).toList =
      (name ++ ":content").toList ++ ' ' :: text.toList := by simp
  have hfound : g.tags.findSome? (tagForm? ((name ++ ":content").toList ++ ' ' :: text.toList)) =
      some (.ok (.tag name x none true)) := by
    refine h.findSome?_tagForm? hform (tagForm?_opening hvalid hblank hcontent hparse)
      fun form hmem hother => tagForm?_append_other (h.names form hmem) hword hblank
        (ne_append_content (h.names form hmem) _).symm fun heq => hother ?_
    exact (String.append_left_inj _).mp heq
  have hplain : BeginsPlain ((name ++ ":content").toList ++ ' ' :: text.toList) := by
    rw [String.toList_append, List.append_assoc]
    exact Registry.beginsPlain_of_isValidName hvalid _
  rw [read_eq_ok_iff (by simp) (by simp [Offers]) (by rw [htext, hfound, Option.some_or]), htext,
    isSome_builtin?_append hword hblank hplain, opensBuiltin_append_content]

theorem read_closing (hcontent : content = true) :
    read g ("end" ++ name) = .ok (.closeTag name) ↔ name ≠ "include" ∧ name ≠ "block" := by
  have hvalid := h.names _ hform
  have hword : IsWord ("end" ++ name).toList := by
    rw [String.toList_append]
    exact IsWord.append (by decide) (Registry.isWord_of_isValidName hvalid)
  have hfound : g.tags.findSome? (tagForm? ("end" ++ name).toList) =
      some (.ok (.closeTag name)) := by
    refine h.findSome?_tagForm? hform ?_ fun form hmem hother => ?_
    · rw [tagForm?_of_isWord hword, if_pos ⟨hcontent, rfl⟩]
    · rw [tagForm?_of_isWord hword, if_neg]
      exact fun heq => hother ((String.append_right_inj _).mp heq.2).symm
  have hne : name ≠ "" := fun heq => (Registry.isValidName_parts hvalid).1 (heq ▸ rfl)
  rw [read_eq_ok_iff (by simp) (by simp [Offers]) (by rw [hfound, Option.some_or]),
    isSome_builtin?_end (Registry.isWord_of_isValidName hvalid) hne, not_or]

end Tags

section Shortcuts

variable {name : String} {content : Bool} (hform : ⟨name, content⟩ ∈ g.shortcuts)
include hform

theorem read_shortcut : read g ("@" ++ name) = .ok (.shortcut name none false) := by
  have hword := (h.aliases _ hform).2
  refine read_at hword (findSome?_eq_of_first h.longestFirst hform
    (shortcutForm?_call name content _) fun form hmem hne hle => ?_)
  by_contra hfits
  rcases shortcutForm?_of_isWord hword hfits with heq | heq
  · exact hne (h.shortcuts _ hform form hmem (String.toList_inj.mp heq).symm)
  · -- an alias that is shorter is tried later
    have hsize : utf8Size name.toList = utf8Size form.name.toList + 8 := by
      rw [heq, String.toList_append, utf8Size_append]
      rfl
    dsimp only at hle
    omega

theorem read_shortcutOpening (hcontent : content = true) :
    read g ("@" ++ name ++ ":content") = .ok (.shortcut name none true) ↔
      ∀ form ∈ g.shortcuts, form.name ≠ name ++ ":content" := by
  subst hcontent
  have hword : IsWord (name ++ ":content").toList := by
    rw [String.toList_append]
    exact (h.aliases _ hform).2.append (by decide)
  rw [String.append_assoc]
  constructor
  · -- with such an alias the text is a call of that
    rintro hread ⟨_, _⟩ hmem rfl
    rw [h.read_shortcut hmem] at hread
    simp at hread
  · intro hfree
    refine read_at hword (findSome?_eq_of_first h.longestFirst hform
      (shortcutForm?_opening name _) fun form hmem hne _ => ?_)
    by_contra hfits
    rcases shortcutForm?_of_isWord hword hfits with heq | heq
    · exact hfree form hmem (String.toList_inj.mp heq).symm
    · have hname := (String.append_left_inj _).mp (String.toList_inj.mp heq)
      exact hne (h.shortcuts _ hform form hmem hname.symm)

theorem read_shortcutClosing (hcontent : content = true) :
    read g ("end" ++ name) = .ok (.closeShortcut name) ↔
      name ≠ "include" ∧ name ≠ "block" ∧
        ∀ form ∈ g.tags, form.content = true → form.name ≠ name := by
  subst hcontent
  obtain ⟨hne, hword⟩ := h.aliases _ hform
  have hend : IsWord ("end" ++ name).toList := by
    rw [String.toList_append]
    exact IsWord.append (by decide) hword
  constructor
  · intro hread
    have hbuiltin := not_builtin?_of_read (by simp [Offers]) hread
    rw [isSome_builtin?_end hword hne, not_or] at hbuiltin
    refine ⟨hbuiltin.1, hbuiltin.2, ?_⟩
    -- a tag of that name is closed before a shortcut
    rintro ⟨_, _⟩ hmem rfl rfl
    rw [(h.read_closing hmem rfl).mpr hbuiltin] at hread
    cases hread
  · rintro ⟨hinclude, hblock, hfree⟩
    have hbuiltin : ¬(builtin? ("end" ++ name).toList).isSome = true := by
      rw [isSome_builtin?_end hword hne]
      tauto
    have htags : g.tags.findSome? (tagForm? ("end" ++ name).toList) = none := by
      refine List.findSome?_eq_none_iff.mpr fun form hmem => ?_
      rw [tagForm?_of_isWord hend, if_neg]
      exact fun heq => hfree form hmem heq.1 ((String.append_right_inj _).mp heq.2).symm
    refine (read_eq_ok_iff (by simp) (by simp [Offers]) ?_).mpr hbuiltin
    have hat : ['@'].isPrefixOf? ("end" ++ name).toList = none := by
      rw [String.toList_append]
      rfl
    rw [htags, Option.none_or, shortcutForms?, hat]
    simp only [closedShortcut?_end hform, Option.map_some]

end Shortcuts

end Grammar.WellFormed

/-- Around balanced statements the opening is closed by this closing and by no other instruction.
-/
def Instruction.PairsWith (opening closing : Instruction) : Prop :=
  ∀ before body after : List Statement, Balanced before → Balanced body → Balanced after →
    ∀ (s e : Statement) (instruction : Instruction),
      (∃ linked,
        link (before ++ s.as opening :: (body ++ e.as instruction :: after)) = .ok linked) ↔
          instruction = closing

/-- What comes after a nest is read with the same open constructs. -/
theorem Nest.targetsFrom_rest (n : Nest) {i : Nat} {stack : List Open} {rest : List Statement}
    {ts : List Target} (h : targetsFrom i stack (n.statements ++ rest) = .ok ts) :
    ∃ us, targetsFrom (i + n.statements.length) stack rest = .ok us := by
  obtain ⟨_, -, hreads⟩ := n.reads i
  rw [hreads stack rest] at h
  cases hrest : targetsFrom (i + n.statements.length) stack rest with
  | ok us => exact ⟨us, rfl⟩
  | error e => simp [hrest, Except.map] at h

theorem balance_of_targetsFrom {i : Nat} {stack : List Open} {s : Statement}
    {rest : List Statement} {ts : List Target} (h : targetsFrom i stack (s :: rest) = .ok ts) :
    ∃ after us vs, s.instruction.balance i stack = .ok (after, us) ∧
      targetsFrom (i + 1) after rest = .ok vs := by
  rw [targetsFrom] at h
  split at h
  · cases h
  · rename_i after us hbalance
    cases hrest : targetsFrom (i + 1) after rest with
    | ok vs => exact ⟨after, us, vs, hbalance, hrest⟩
    | error e => simp [hrest, Except.map] at h

/-- What closes the last open construct is its closing. -/
theorem Instruction.Moves.eq_closing {instruction : Instruction} {index : Nat} {o : Open}
    (h : instruction.Moves index [o] []) : instruction = o.closing := by
  cases h
  rfl

namespace Collector

theorem closing_opened (collector : Collector) (index : Nat) :
    (collector.opened index).closing = collector.closing := by
  cases collector <;> rfl

/-- The opening is the only construct that is open when the instruction comes, and none is left open
in the end. -/
theorem pairsWith (collector : Collector) : collector.opening.PairsWith collector.closing := by
  rintro _ _ _ ⟨before, rfl⟩ ⟨body, rfl⟩ ⟨after, rfl⟩ s e instruction
  constructor
  · rintro ⟨linked, hlink⟩
    cases htargets : targetsFrom 0 [] (before.statements ++ s.as collector.opening ::
        (body.statements ++ e.as instruction :: after.statements)) with
    | error error => simp [link, htargets, Except.map] at hlink
    | ok us =>
      obtain ⟨_, hrest⟩ := before.targetsFrom_rest htargets
      obtain ⟨_, _, _, hopening, hrest⟩ := balance_of_targetsFrom hrest
      obtain ⟨rfl, -⟩ := Prod.mk.inj (Except.ok.inj ((balance_opening ..).symm.trans hopening))
      obtain ⟨_, hrest⟩ := body.targetsFrom_rest hrest
      obtain ⟨left, _, _, hclosing, hrest⟩ := balance_of_targetsFrom hrest
      rw [← List.append_nil after.statements] at hrest
      obtain ⟨_, hrest⟩ := after.targetsFrom_rest hrest
      cases left with
      | cons innermost outer => simp [targetsFrom] at hrest
      | nil =>
        exact (Instruction.moves_of_balance hclosing).eq_closing.trans (collector.closing_opened _)
  · rintro rfl
    obtain ⟨linked, hlink, -⟩ :=
      Nest.link_statements (before.append (.collecting s collector body e after))
    rw [Nest.statements_append] at hlink
    exact ⟨linked, hlink⟩

end Collector

namespace Engine

open Directive

/-- Every use of a tag is read as such, unless a builtin form comes before it. -/
structure ReadsTags (e : Engine) : Prop where
  call : ∀ name tag text x, e.tags.get? name = some tag → Expr.parse text = .ok x →
    (read e.grammar (name ++ " " ++ text) = .ok (.tag name x none false) ↔
      ¬OpensBuiltin name text.toList)
  opening : ∀ name tag text x, e.tags.get? name = some tag → tag.content = true →
    Expr.parse text = .ok x →
    (read e.grammar (name ++ ":content " ++ text) = .ok (.tag name x none true) ↔
      name ≠ "include")
  closing : ∀ name tag, e.tags.get? name = some tag → tag.content = true →
    (read e.grammar ("end" ++ name) = .ok (.closeTag name) ↔ name ≠ "include" ∧ name ≠ "block")
  pair : ∀ name x, (Instruction.tag name x none true).PairsWith (.closeTag name)

/-- Every use of a shortcut is read as such. With content, another alias may come before its
opening, and a builtin form or a tag before its end. -/
structure ReadsShortcuts (e : Engine) : Prop where
  call : ∀ aliasName target, e.config.shortcuts.lookup aliasName = some target →
    read e.grammar ("@" ++ aliasName) = .ok (.shortcut aliasName none false)
  opening : ∀ aliasName target tag, e.config.shortcuts.lookup aliasName = some target →
    e.tags.get? target.tag = some tag → tag.content = true →
    (read e.grammar ("@" ++ aliasName ++ ":content") = .ok (.shortcut aliasName none true) ↔
      e.config.shortcuts.lookup (aliasName ++ ":content") = none)
  closing : ∀ aliasName target tag, e.config.shortcuts.lookup aliasName = some target →
    e.tags.get? target.tag = some tag → tag.content = true →
    (read e.grammar ("end" ++ aliasName) = .ok (.closeShortcut aliasName) ↔
      aliasName ≠ "include" ∧ aliasName ≠ "block" ∧
        ∀ other, e.tags.get? aliasName = some other → other.content = false)
  pair : ∀ aliasName,
    (Instruction.shortcut aliasName none true).PairsWith (.closeShortcut aliasName)

namespace Consistent

variable {e : Engine} (h : e.Consistent)
include h

theorem form_of_tag {name : String} {tag : Tag} (htag : e.tags.get? name = some tag) :
    ⟨name, tag.content⟩ ∈ e.grammar.tags := by
  rw [h.grammar, Registry.tags_grammar]
  exact List.mem_map.mpr ⟨(name, tag), mem_of_lookup_eq htag, rfl⟩

theorem form_of_shortcut {aliasName : String} {target : ShortcutTarget} {tag : Tag}
    (htarget : e.config.shortcuts.lookup aliasName = some target)
    (htag : e.tags.get? target.tag = some tag) :
    ⟨aliasName, tag.content⟩ ∈ e.grammar.shortcuts := by
  rw [h.grammar, (Registry.shortcuts_grammar _ _).mem_iff]
  refine List.mem_map.mpr ⟨(aliasName, target), mem_of_lookup_eq htarget, ?_⟩
  simp [Registry.acceptsContent, htag]

/-- Entries with the same key are one. -/
theorem wellFormed (hnames : ∀ entry ∈ e.tags, Registry.isValidName entry.1 = true)
    (haliases : ∀ entry ∈ e.config.shortcuts, entry.1 ≠ "" ∧ IsWord entry.1.toList) :
    e.grammar.WellFormed where
  names form hform := by
    obtain ⟨tag, htag, -⟩ := h.tag_of_form hform
    exact hnames _ (mem_of_lookup_eq htag)
  tags form hform other hother hname := by
    obtain ⟨tag, htag, hcontent⟩ := h.tag_of_form hform
    obtain ⟨tag', htag', hcontent'⟩ := h.tag_of_form hother
    rw [hname, htag] at htag'
    obtain rfl := Option.some.inj htag'
    exact Form.eq_of hname (hcontent'.symm.trans hcontent)
  aliases form hform := by
    obtain ⟨target, _, htarget, -⟩ := h.shortcut_of_form hform
    exact haliases _ (mem_of_lookup_eq htarget)
  shortcuts form hform other hother hname := by
    obtain ⟨target, tag, htarget, htag, hcontent⟩ := h.shortcut_of_form hform
    obtain ⟨target', tag', htarget', htag', hcontent'⟩ := h.shortcut_of_form hother
    rw [hname, htarget] at htarget'
    obtain rfl := Option.some.inj htarget'
    obtain rfl := Option.some.inj (htag.symm.trans htag')
    exact Form.eq_of hname (hcontent'.symm.trans hcontent)
  longestFirst := by
    rw [h.grammar]
    exact Registry.longestFirst_grammar _ _

theorem readsTags (hgrammar : e.grammar.WellFormed) : e.ReadsTags where
  call _ _ _ _ htag hparse := hgrammar.read_call (h.form_of_tag htag) hparse
  opening _ _ _ _ htag hcontent hparse :=
    hgrammar.read_opening (h.form_of_tag htag) hcontent hparse
  closing _ _ htag hcontent := hgrammar.read_closing (h.form_of_tag htag) hcontent
  pair name x := (Collector.tag name x none).pairsWith

theorem readsShortcuts (hgrammar : e.grammar.WellFormed) : e.ReadsShortcuts where
  call aliasName target htarget := by
    obtain ⟨tag, htag⟩ :=
      Option.isSome_iff_exists.mp (h.targets _ (mem_of_lookup_eq htarget))
    exact hgrammar.read_shortcut (h.form_of_shortcut htarget htag)
  opening aliasName target tag htarget htag hcontent := by
    rw [hgrammar.read_shortcutOpening (h.form_of_shortcut htarget htag) hcontent]
    constructor
    · intro hfree
      by_contra htaken
      obtain ⟨other, hother⟩ := Option.ne_none_iff_exists'.mp htaken
      obtain ⟨tag', htag'⟩ :=
        Option.isSome_iff_exists.mp (h.targets _ (mem_of_lookup_eq hother))
      exact hfree _ (h.form_of_shortcut hother htag') rfl
    · intro hfree form hform hname
      obtain ⟨other, _, hother, -⟩ := h.shortcut_of_form hform
      rw [hname, hfree] at hother
      cases hother
  closing aliasName target tag htarget htag hcontent := by
    rw [hgrammar.read_shortcutClosing (h.form_of_shortcut htarget htag) hcontent]
    refine and_congr_right fun _ => and_congr_right fun _ => ⟨fun hfree other hother => ?_,
      fun hfree form hform hcontent' hname => ?_⟩
    · exact Bool.not_eq_true _ ▸ fun hcontent' => hfree _ (h.form_of_tag hother) hcontent' rfl
    · obtain ⟨other, hother, hsame⟩ := h.tag_of_form hform
      rw [← hsame, hfree other (hname ▸ hother)] at hcontent'
      cases hcontent'
  pair aliasName := (Collector.shortcut aliasName none).pairsWith

end Consistent

theorem wellFormed_of_build {s : EngineSetup} {e : Engine} (hs : s.Assembled)
    (h : s.build = .ok e) : e.grammar.WellFormed := by
  have hconsistent := (Obtained.built hs h).consistent
  obtain ⟨rfl, hchecked⟩ := EngineSetup.build_eq_ok h
  exact hconsistent.wellFormed hchecked.names fun entry hentry =>
    ⟨(hchecked.aliases entry hentry).1, (hchecked.aliases entry hentry).2.1⟩

/-- In an engine that could be built every use of a tag and of a shortcut is read as such, but for
those that a form which is tried earlier takes. Builtin forms take the calls of tags with a builtin
word as their name, and openings and ends with `include` and `block`; an alias that goes on with
`:content` takes the opening of the shorter one; a tag takes the end of a shortcut of its name. What
is read as an opening is closed by what is read as its end, and by nothing else. -/
theorem forms_read {s : EngineSetup} {e : Engine} (hs : s.Assembled) (h : s.build = .ok e) :
    e.ReadsTags ∧ e.ReadsShortcuts := by
  have hconsistent := (Obtained.built hs h).consistent
  have hgrammar := wellFormed_of_build hs h
  exact ⟨hconsistent.readsTags hgrammar, hconsistent.readsShortcuts hgrammar⟩

end Engine

def crowded : EngineSetup :=
  let setup : EngineSetup := { source := .ofList [], host := fun _ _ => .ok .undefined }
  let tagged := ["else", "if", "include", "line"].foldl (·.withTag · Element.tag) setup
  (tagged.withShortcut "line" ⟨"tag", "hr"⟩).withShortcut "line:content" ⟨"tag", "p"⟩

theorem crowded_assembled : crowded.Assembled :=
  .withShortcut (.withShortcut (.withTag (.withTag (.withTag (.withTag (.start _ _) _ _) _ _) _ _)
    _ _) _ _) _ _

theorem crowded_build : crowded.build = .ok crowded.engine :=
  EngineSetup.build_of_isSome (by decide +kernel)

theorem crowded_forms_read : crowded.Assembled ∧ crowded.build = .ok crowded.engine ∧
    crowded.engine.ReadsTags ∧ crowded.engine.ReadsShortcuts ∧
    (∃ x, Expr.parse "'x'" = .ok x ∧
      Directive.read crowded.engine.grammar "line 'x'" = .ok (.tag "line" x none false) ∧
      Directive.read crowded.engine.grammar "line:content 'x'" = .ok (.tag "line" x none true)) ∧
    Directive.read crowded.engine.grammar "endline" = .ok (.closeTag "line") ∧
    Directive.read crowded.engine.grammar "@line" = .ok (.shortcut "line" none false) := by
  obtain ⟨htags, hshortcuts⟩ := Engine.forms_read crowded_assembled crowded_build
  refine ⟨crowded_assembled, crowded_build, htags, hshortcuts, ?_, ?_, ?_⟩
  · cases hparse : Expr.parse "'x'" with
    | error e =>
      have hsome : (Expr.parse "'x'").toOption.isSome = true := by decide +kernel
      simp [hparse, Except.toOption] at hsome
    | ok x =>
      refine ⟨x, rfl, (htags.call "line" _ "'x'" x rfl hparse).mpr ?_,
        (htags.opening "line" _ "'x'" x rfl rfl hparse).mpr (by decide)⟩
      rintro (h | ⟨h, -⟩) <;> revert h <;> decide
  · exact (htags.closing "line" _ rfl rfl).mpr (by decide)
  · exact hshortcuts.call "line" ⟨"tag", "hr"⟩ rfl

/-- Every one of the exceptions is there. -/
theorem crowded_forms_taken : crowded.Assembled ∧ crowded.build = .ok crowded.engine ∧
    (∀ name ∈ ["else", "if", "include", "line"],
      crowded.engine.tags.get? name = some Element.tag) ∧
    (Expr.parse "'x'").toOption.isSome = true ∧ (Expr.parse "if (x)").toOption.isSome = true ∧
    (∀ first data content, Directive.read crowded.engine.grammar "if 'x'" ≠
      .ok (.tag "if" first data content)) ∧
    (∀ first data content, Directive.read crowded.engine.grammar "else if (x)" ≠
      .ok (.tag "else" first data content)) ∧
    (∀ first data content, Directive.read crowded.engine.grammar "include:content 'x'" ≠
      .ok (.tag "include" first data content)) ∧
    Directive.read crowded.engine.grammar "endinclude" ≠ .ok (.closeTag "include") ∧
    Directive.read crowded.engine.grammar "@line:content" ≠ .ok (.shortcut "line" none true) ∧
    Directive.read crowded.engine.grammar "endline" ≠ .ok (.closeShortcut "line") := by
  have hgrammar := Engine.wellFormed_of_build crowded_assembled crowded_build
  have hline : ⟨"line", true⟩ ∈ crowded.engine.grammar.shortcuts := by decide +kernel
  have hbuiltin {g : Grammar} {directive : String} {instruction : Instruction}
      (hcalls : ¬Grammar.Offers {} instruction)
      (h : (Directive.builtin? directive.toList).isSome = true) :
      Directive.read g directive ≠ .ok instruction :=
    fun hread => Directive.not_builtin?_of_read hcalls hread h
  refine ⟨crowded_assembled, crowded_build, ?_, by decide +kernel, by decide +kernel,
    fun _ _ _ => hbuiltin (by simp [Grammar.Offers]) (by decide +kernel),
    fun _ _ _ => hbuiltin (by simp [Grammar.Offers]) (by decide +kernel),
    fun _ _ _ => hbuiltin (by simp [Grammar.Offers]) (by decide +kernel),
    hbuiltin (by simp [Grammar.Offers]) (by decide +kernel), fun hread => ?_, fun hread => ?_⟩
  · rintro name hname
    simp only [List.mem_cons, List.not_mem_nil, or_false] at hname
    rcases hname with rfl | rfl | rfl | rfl <;> rfl
  · have hfree := (hgrammar.read_shortcutOpening hline rfl).mp hread
    exact hfree ⟨"line:content", true⟩ (by decide +kernel) rfl
  · have hfree := ((hgrammar.read_shortcutClosing hline rfl).mp hread).2.2
    exact hfree ⟨"line", true⟩ (by decide +kernel) rfl rfl

end Templating
