import Templating.Proofs.FirstWords
import Templating.Proofs.Occurrences
import Templating.Proofs.TokenTiles
import Templating.Proofs.Trimming

/-!
Headers of loops. A header is cut at its first `in` that stands alone and has something after it:
before it are one name or two, and after it is the expression that is looped over, whatever that
holds.
-/
namespace Templating
open Text

section

variable {name : String} {c : Char}

theorem isWordPart_of_mem_name (h : isName name = true) (hc : c ∈ name.toList) :
    isWordPart c = true := by
  unfold isName at h
  split at h
  · cases h
  · rename_i d ds hname
    rw [Bool.and_eq_true, Bool.and_eq_true, List.all_eq_true] at h
    rw [hname] at hc
    rcases List.mem_cons.mp hc with rfl | hc
    · exact isWordPart_of_isWordStart h.1.1
    · exact h.1.2 c hc

theorem isWord_of_isName (h : isName name = true) : IsWord name.toList := by
  intro c hc
  by_contra hblank
  have hpart := isWordPart_of_isBlank (Bool.not_eq_false _ ▸ hblank)
  rw [isWordPart_of_mem_name h hc] at hpart
  cases hpart

theorem comma_not_mem_name (h : isName name = true) : ',' ∉ name.toList := by
  intro hc
  have hcomma : isWordPart ',' = false := by decide +kernel
  rw [isWordPart_of_mem_name h hc] at hcomma
  cases hcomma

theorem toList_ne_nil_of_isName (h : isName name = true) : name.toList ≠ [] := by
  intro hnil
  rw [isName, hnil] at h
  cases h

theorem ne_in_of_isName (h : isName name = true) : name ≠ "in" := by
  rintro rfl
  exact absurd h (by decide +kernel)

theorem IsWord.beginsSolid {w : List Char} (h : IsWord w) (hne : w ≠ []) : BeginsSolid w := by
  obtain ⟨c, rest, rfl⟩ := List.exists_cons_of_ne_nil hne
  exact ⟨c, rest, rfl, h c List.mem_cons_self⟩

theorem IsWord.reverse {w : List Char} (h : IsWord w) : IsWord w.reverse :=
  fun c hc => h c (List.mem_reverse.mp hc)

end

namespace Directive

variable {header before source piece : List Char} {c : Char} {v : String} {k : Option String}

/-- An `in` with a blank in front and blanks behind it, and then something else. -/
structure CutAt (header before source : List Char) : Prop where
  splits : ∃ c gap, isBlank c = true ∧ gap ≠ [] ∧ Blanks gap ∧
    header = before ++ c :: ("in".toList ++ gap ++ source)
  begins : BeginsSolid source

structure FirstCut (header before source : List Char) : Prop where
  cut : CutAt header before source
  first : ∀ before' source', CutAt header before' source' → before.length ≤ before'.length

theorem cutAt_cons {d : Char} : CutAt (c :: header) (d :: before) source ↔
    c = d ∧ CutAt header before source := by
  constructor
  · rintro ⟨⟨b, gap, hb, hne, hgap, hheader⟩, hsource⟩
    obtain ⟨hc, hrest⟩ := List.cons.inj hheader
    exact ⟨hc, ⟨b, gap, hb, hne, hgap, hrest⟩, hsource⟩
  · rintro ⟨rfl, ⟨b, gap, hb, hne, hgap, rfl⟩, hsource⟩
    exact ⟨⟨b, gap, hb, hne, hgap, rfl⟩, hsource⟩

theorem not_cutAt_nil : ¬CutAt [] before source := by
  rintro ⟨⟨b, gap, -, -, -, hheader⟩, -⟩
  exact absurd hheader.symm (by simp)

/-- An `in` at the beginning, behind one blank. -/
theorem cutAt_nil_iff : CutAt (c :: header) [] source ↔
    isBlank c = true ∧ (afterWord? "in" header).filter (!·.isEmpty) = some source := by
  rw [Option.filter_eq_some_iff, afterWord?_eq_some_iff]
  constructor
  · rintro ⟨⟨b, gap, hb, hne, hgap, hheader⟩, hsource⟩
    obtain ⟨rfl, rfl⟩ := List.cons.inj hheader
    obtain ⟨d, gap, rfl⟩ := List.exists_cons_of_ne_nil hne
    refine ⟨hb, ⟨d, gap ++ source, hgap d List.mem_cons_self, by simp, ?_⟩, ?_⟩
    · exact (trimStart_append (fun x hx => hgap x (List.mem_cons_of_mem d hx)) hsource).symm
    · simpa using hsource.ne_nil
  · rintro ⟨hc, ⟨d, rest, hd, rfl, rfl⟩, hne⟩
    obtain ⟨gap, hgap, hrest⟩ := exists_trimStart rest
    refine ⟨⟨c, d :: gap, hc, List.cons_ne_nil d gap, ?_, ?_⟩, beginsSolid_trimStart ?_⟩
    · exact List.forall_mem_cons.mpr ⟨hd, hgap⟩
    · rw [List.append_assoc, List.cons_append, ← hrest]
      rfl
    · simpa using hne

theorem firstCut_nil (h : CutAt header [] source) : FirstCut header [] source :=
  ⟨h, fun _ _ _ => Nat.zero_le _⟩

/-- When there is no cut at the beginning, the first one is further on. -/
theorem firstCut_cons_iff (hno : ∀ source, ¬CutAt (c :: header) [] source) :
    FirstCut (c :: header) before source ↔
      ∃ before', before = c :: before' ∧ FirstCut header before' source := by
  constructor
  · rintro ⟨hcut, hfirst⟩
    cases before with
    | nil => exact absurd hcut (hno source)
    | cons d before =>
      obtain ⟨rfl, hlater⟩ := cutAt_cons.mp hcut
      refine ⟨before, rfl, hlater, fun before' source' h => ?_⟩
      exact Nat.le_of_succ_le_succ (hfirst _ _ (cutAt_cons.mpr ⟨rfl, h⟩))
  · rintro ⟨before, rfl, hcut, hfirst⟩
    refine ⟨cutAt_cons.mpr ⟨rfl, hcut⟩, fun before' source' h => ?_⟩
    cases before' with
    | nil => exact absurd h (hno source')
    | cons d before' => exact Nat.succ_le_succ (hfirst _ _ (cutAt_cons.mp h).2)

theorem splitIn?_eq_some_iff : splitIn? header = some (before, source) ↔
    FirstCut header before source := by
  fun_induction splitIn? header generalizing before with
  | case1 => exact iff_of_false nofun fun h => not_cutAt_nil h.cut
  | case2 c header source? found =>
    rename_i hfound
    have hcut : CutAt (c :: header) [] found := by
      rw [cutAt_nil_iff, ← Option.ite_none_right_eq_some]
      exact hfound
    constructor
    · rintro ⟨⟩
      exact firstCut_nil hcut
    · rintro ⟨hcut', hfirst⟩
      obtain rfl : before = [] := List.eq_nil_of_length_eq_zero (Nat.le_zero.mp (hfirst _ _ hcut))
      have hsame := (cutAt_nil_iff.mp hcut).2.symm.trans (cutAt_nil_iff.mp hcut').2
      rw [Option.some.inj hsame]
  | case3 c header source? hnone =>
    rename_i ih
    have hno (s : List Char) : ¬CutAt (c :: header) [] s := by
      rw [cutAt_nil_iff, ← Option.ite_none_right_eq_some]
      intro hsome
      cases hnone.symm.trans hsome
    rw [firstCut_cons_iff hno]
    simp only [Option.map_eq_some_iff, Prod.exists, Prod.mk.injEq]
    constructor
    · rintro ⟨before', source', hsplit, rfl, rfl⟩
      exact ⟨before', rfl, ih.mp hsplit⟩
    · rintro ⟨before', rfl, h⟩
      exact ⟨before', source, ih.mpr h, rfl, rfl⟩

/-- A name with any blanks around it. -/
structure Binds (piece : List Char) (name : String) : Prop where
  isName : isName name = true
  around : ∃ before after, Blanks before ∧ Blanks after ∧ piece = before ++ name.toList ++ after

/-- One name, or two with a comma between. -/
inductive Bindings : List Char → String → Option String → Prop
  | one {piece : List Char} {value : String} (h : Binds piece value) : Bindings piece value none
  | two {piece piece' : List Char} {value key : String} (h : Binds piece value)
      (h' : Binds piece' key) : Bindings (piece ++ ',' :: piece') value (some key)

theorem binds_iff {name : String} :
    Binds piece name ↔ isName name = true ∧ String.ofList (trim piece) = name := by
  constructor
  · rintro ⟨hname, before, after, hbefore, hafter, rfl⟩
    have hword := isWord_of_isName hname
    have hne := toList_ne_nil_of_isName hname
    have htrim := trim_append hbefore hafter (hword.beginsSolid hne)
      (hword.reverse.beginsSolid (mt List.reverse_eq_nil_iff.mp hne))
    rw [htrim, String.ofList_toList]
    exact ⟨hname, rfl⟩
  · rintro ⟨hname, rfl⟩
    obtain ⟨before, after, hbefore, hafter, hpiece⟩ := exists_around_trim piece
    refine ⟨hname, before, after, hbefore, hafter, ?_⟩
    rwa [String.toList_ofList]

theorem Binds.comma_not_mem {name : String} (h : Binds piece name) : ',' ∉ piece := by
  obtain ⟨before, after, hbefore, hafter, rfl⟩ := h.around
  have hblanks {cs : List Char} (hcs : Blanks cs) : ',' ∉ cs := fun hc =>
    absurd (hcs ',' hc) (by decide)
  simp only [List.mem_append, not_or]
  exact ⟨⟨hblanks hbefore, comma_not_mem_name h.isName⟩, hblanks hafter⟩

theorem Binds.trimEnd {name : String} (h : Binds piece name) (before : List Char) :
    ∃ piece', Binds piece' name ∧ trimEnd (before ++ piece) = before ++ piece' := by
  obtain ⟨blanks, after, hblanks, hafter, rfl⟩ := h.around
  have hword := (isWord_of_isName h.isName).reverse
  have hne := mt List.reverse_eq_nil_iff.mp (toList_ne_nil_of_isName h.isName)
  refine ⟨blanks ++ name.toList, ⟨h.isName, blanks, [], hblanks, nofun, (List.append_nil _).symm⟩,
    ?_⟩
  rw [← List.append_assoc, trimEnd_append hafter]
  rw [List.reverse_append, List.reverse_append]
  exact ((hword.beginsSolid hne).append _).append _

theorem Binds.append {name : String} (h : Binds piece name) {gap : List Char} (hgap : Blanks gap) :
    Binds (piece ++ gap) name := by
  obtain ⟨before, after, hbefore, hafter, rfl⟩ := h.around
  exact ⟨h.isName, before, after ++ gap, hbefore, hafter.append hgap, List.append_assoc _ _ _⟩

/-- Blanks at the end do not matter. -/
theorem bindings_trimEnd_iff : Bindings (trimEnd before) v k ↔ Bindings before v k := by
  constructor
  · intro h
    obtain ⟨gap, hgap, hbefore⟩ := exists_trimEnd before
    rw [hbefore]
    generalize trimEnd before = piece at h ⊢
    cases h with
    | one h => exact .one (h.append hgap)
    | two h h' =>
      rw [List.append_assoc]
      exact .two h (h'.append hgap)
  · intro h
    cases h with
    | one h =>
      obtain ⟨piece, hpiece, htrim⟩ := h.trimEnd []
      rw [List.nil_append] at htrim
      rw [htrim]
      exact .one hpiece
    | @two piece piece' value key h h' =>
      obtain ⟨piece'', hpiece, htrim⟩ := h'.trimEnd (piece ++ [','])
      simp only [List.append_assoc, List.singleton_append] at htrim
      rw [htrim]
      exact .two h hpiece

theorem loopNames?_eq_some_iff : loopNames? before = some (v, k) ↔ Bindings before v k := by
  constructor
  · intro h
    unfold loopNames? at h
    split at h
    · rename_i value hpieces
      obtain ⟨piece, hpiece, rfl⟩ := List.map_eq_singleton_iff.mp hpieces
      obtain ⟨-, -, rfl⟩ := pieces_singleton_eq_iff.mp hpiece
      obtain ⟨hname, heq⟩ := Option.ite_none_right_eq_some.mp h
      obtain ⟨rfl, rfl⟩ := Prod.mk.inj (Option.some.inj heq)
      rw [List.intercalate_singleton]
      exact .one (binds_iff.mpr ⟨hname, rfl⟩)
    · rename_i value key hpieces
      obtain ⟨piece, pieces', hpiece, rfl, hrest⟩ := List.map_eq_cons_iff.mp hpieces
      obtain ⟨piece', rfl, rfl⟩ := List.map_eq_singleton_iff.mp hrest
      obtain ⟨-, -, rfl⟩ := pieces_singleton_eq_iff.mp hpiece
      obtain ⟨hnames, heq⟩ := Option.ite_none_right_eq_some.mp h
      obtain ⟨rfl, rfl⟩ := Prod.mk.inj (Option.some.inj heq)
      obtain ⟨hname, hname'⟩ := Bool.and_eq_true_iff.mp hnames
      rw [List.intercalate_cons_cons, List.intercalate_singleton, List.append_assoc]
      exact .two (binds_iff.mpr ⟨hname, rfl⟩) (binds_iff.mpr ⟨hname', rfl⟩)
    · cases h
  · intro h
    cases h with
    | one h =>
      have hpieces : pieces [','] before = [before] := pieces_singleton_eq_iff.mpr
        ⟨List.cons_ne_nil _ _, by simpa using h.comma_not_mem, (List.intercalate_singleton).symm⟩
      obtain ⟨hname, htrim⟩ := binds_iff.mp h
      simp [loopNames?, hpieces, htrim, hname]
    | @two piece piece' value key h h' =>
      have hpieces : pieces [','] (piece ++ ',' :: piece') = [piece, piece'] :=
        pieces_singleton_eq_iff.mpr ⟨List.cons_ne_nil _ _,
          by simpa using ⟨h.comma_not_mem, h'.comma_not_mem⟩, by simp⟩
      obtain ⟨hname, htrim⟩ := binds_iff.mp h
      obtain ⟨hname', htrim'⟩ := binds_iff.mp h'
      simp [loopNames?, hpieces, htrim, htrim', hname, hname']

/-- A header is that of a loop when there are names before its first cut and an expression after.
-/
structure LoopOver (header : List Char) (value : String) (key : Option String) (e : Expr) :
    Prop where
  reads : ∃ before source, FirstCut header before source ∧ Bindings before value key ∧
    Expr.parse (String.ofList source) = .ok e

theorem expression_eq_ok_iff {text tail : List Char} {e : Expr} :
    expression text tail = .ok e ↔ Expr.parse (String.ofList tail) = .ok e := by
  unfold expression
  cases Expr.parse (String.ofList tail) <;> simp

theorem loopHeader_eq_ok_iff {text : List Char} {kind : LoopKind} {i : Instruction} :
    loopHeader text header kind = .ok i ↔
      ∃ value key e, LoopOver header value key e ∧ i = .loop kind value key e none := by
  constructor
  · intro h
    unfold loopHeader at h
    dsimp only at h
    split at h
    · cases h
    · rename_i before source hsplit
      split at h
      · cases h
      · rename_i value key hnames
        cases hparse : expression text source with
        | error e =>
          rw [hparse] at h
          cases h
        | ok e =>
          rw [hparse] at h
          cases h
          refine ⟨value, key, e, ⟨before, source, splitIn?_eq_some_iff.mp hsplit, ?_,
            expression_eq_ok_iff.mp hparse⟩, rfl⟩
          exact bindings_trimEnd_iff.mp (loopNames?_eq_some_iff.mp hnames)
  · rintro ⟨value, key, e, ⟨before, source, hcut, hbindings, hparse⟩, rfl⟩
    have hnames := loopNames?_eq_some_iff.mpr (bindings_trimEnd_iff.mpr hbindings)
    simp only [loopHeader, splitIn?_eq_some_iff.mpr hcut, hnames,
      expression_eq_ok_iff.mpr hparse]
    rfl

theorem builtin?_loop (kind : LoopKind) (hc : isBlank c = true) (rest : List Char) :
    builtin? (kind.word.toList ++ c :: rest) =
      some (loopHeader (kind.word.toList ++ c :: rest) (trimStart rest) kind) := by
  have hname : IsWord kind.word.toList := by cases kind <;> decide
  have hafter (word : String) (hword : IsWord word.toList) :=
    afterWord?_append hname hword hc rest
  have hne (word : String) (hword : IsWord word.toList) :
      kind.word.toList ++ c :: rest ≠ word.toList := hword.ne_append_blank hc rest
  have hplain : BeginsPlain (kind.word.toList ++ c :: rest) := by
    cases kind <;> exact ⟨by simp [LoopKind.word], by simp [LoopKind.word]⟩
  simp (disch := decide) only [builtin?, hafter, hne, hplain.isPrefixOf?, if_neg hplain.not_comment,
    if_false]
  cases kind <;> simp [LoopKind.word]

/-- After the word that opens a loop comes its header. -/
theorem read_loop (grammar : Grammar) (kind : LoopKind) {gap : List Char} (hne : gap ≠ [])
    (hgap : Blanks gap) (hheader : header = [] ∨ BeginsSolid header) :
    read grammar (String.ofList (kind.word.toList ++ gap ++ header)) =
      loopHeader (kind.word.toList ++ gap ++ header) header kind := by
  obtain ⟨c, gap, rfl⟩ := List.exists_cons_of_ne_nil hne
  have hrest : trimStart (gap ++ header) = header := by
    obtain ⟨hc, hgap⟩ := List.forall_mem_cons.mp hgap
    rcases hheader with rfl | hheader
    · rw [List.append_nil]
      exact List.dropWhile_eq_nil_iff.mpr hgap
    · exact trimStart_append hgap hheader
  have hbuiltin := builtin?_loop kind (hgap c List.mem_cons_self) (gap ++ header)
  rw [hrest] at hbuiltin
  rw [List.append_assoc, List.cons_append, read, String.toList_ofList, hbuiltin]
  simp

theorem read_spaced {grammar : Grammar} {kind : LoopKind} {text : String} {e : Expr}
    (hbegins : BeginsSolid text.toList) (h : LoopOver text.toList v k e) :
    read grammar (kind.word ++ " " ++ text) = .ok (.loop kind v k e none) := by
  have htext : kind.word ++ " " ++ text =
      String.ofList (kind.word.toList ++ [' '] ++ text.toList) := by
    rw [← String.toList_inj]
    simp
  rw [htext, read_loop grammar kind (List.cons_ne_nil _ _) (by decide) (.inr hbegins)]
  exact loopHeader_eq_ok_iff.mpr ⟨v, k, e, h, rfl⟩

theorem FirstCut.cons (h : FirstCut header before source) (hc : isBlank c = false) :
    FirstCut (c :: header) (c :: before) source := by
  refine (firstCut_cons_iff fun source hcut => ?_).mpr ⟨before, rfl, h⟩
  rw [(cutAt_nil_iff.mp hcut).1] at hc
  cases hc

theorem FirstCut.append_word {w : List Char} (hw : IsWord w) (h : FirstCut header before source) :
    FirstCut (w ++ header) (w ++ before) source := by
  induction w with
  | nil => exact h
  | cons c w ih =>
    obtain ⟨hc, hw⟩ := List.forall_mem_cons.mp hw
    exact (ih hw).cons hc

theorem firstCut_in (hsource : BeginsSolid source) :
    FirstCut (' ' :: 'i' :: 'n' :: ' ' :: source) [] source :=
  firstCut_nil ⟨⟨' ', [' '], rfl, List.cons_ne_nil _ _, by decide, rfl⟩, hsource⟩

/-- No name is taken for the `in` before which the header is cut. -/
theorem firstCut_key {key : String} (hkey : isName key = true) (hsource : BeginsSolid source) :
    FirstCut (' ' :: (key.toList ++ ' ' :: 'i' :: 'n' :: ' ' :: source)) (' ' :: key.toList)
      source := by
  have hword := isWord_of_isName hkey
  have hlater := (firstCut_in hsource).append_word hword
  rw [List.append_nil] at hlater
  refine (firstCut_cons_iff fun source hcut => ?_).mpr ⟨_, rfl, hlater⟩
  have hin := (Option.filter_eq_some_iff.mp (cutAt_nil_iff.mp hcut).2).1
  rw [afterWord?_append hword (by decide) rfl, if_neg (ne_in_of_isName hkey).symm] at hin
  cases hin

theorem binds_name {name : String} (h : isName name = true) : Binds name.toList name :=
  ⟨h, [], [], nofun, nofun, by simp⟩

theorem loopOver_value {value text : String} {e : Expr} (hvalue : isName value = true)
    (hsource : BeginsSolid text.toList) (hparse : Expr.parse text = .ok e) :
    LoopOver (value ++ " in " ++ text).toList value none e := by
  have hcut := (firstCut_in hsource).append_word (isWord_of_isName hvalue)
  refine ⟨value.toList, text.toList, ?_, .one (binds_name hvalue), ?_⟩
  · simpa using hcut
  · rwa [String.ofList_toList]

theorem loopOver_key {value key text : String} {e : Expr} (hvalue : isName value = true)
    (hkey : isName key = true) (hsource : BeginsSolid text.toList)
    (hparse : Expr.parse text = .ok e) :
    LoopOver (value ++ ", " ++ key ++ " in " ++ text).toList value (some key) e := by
  have hcut := ((firstCut_key hkey hsource).cons (c := ',') (by decide)).append_word
    (isWord_of_isName hvalue)
  have hbinds : Binds (' ' :: key.toList) key := ⟨hkey, [' '], [], by decide, nofun, by simp⟩
  refine ⟨value.toList ++ ',' :: ' ' :: key.toList, text.toList, ?_,
    .two (binds_name hvalue) hbinds, ?_⟩
  · simpa using hcut
  · rwa [String.ofList_toList]

theorem beginsSolid_of_parse {text : String} {e : Expr} (hparse : Expr.parse text = .ok e)
    (hblank : ∀ c, text.toList.head? = some c → isBlank c = false) : BeginsSolid text.toList := by
  cases htext : text.toList with
  | nil =>
    rw [String.toList_eq_nil_iff.mp htext] at hparse
    have hempty : (Expr.parse "").toOption.isSome = false := by decide +kernel
    rw [hparse] at hempty
    cases hempty
  | cons c rest => exact ⟨c, rest, rfl, hblank c (by rw [htext]; rfl)⟩

/-- A header is read exactly if there are names before its first `in` and an expression after it,
and the loop has these. What comes after `for` or `each` is read as a header; one with single blanks
gives the loop over just the expression it ends with, whatever that holds. -/
theorem loop_headers (grammar : Grammar) (kind : LoopKind) :
    (∀ (text header : List Char) (i : Instruction), loopHeader text header kind = .ok i ↔
      ∃ value key e, LoopOver header value key e ∧ i = .loop kind value key e none) ∧
    (∀ gap header : List Char, gap ≠ [] → Blanks gap → header = [] ∨ BeginsSolid header →
      read grammar (String.ofList (kind.word.toList ++ gap ++ header)) =
        loopHeader (kind.word.toList ++ gap ++ header) header kind) ∧
    ∀ (value text : String) (e : Expr), isName value = true → Expr.parse text = .ok e →
      (∀ c, text.toList.head? = some c → isBlank c = false) →
      read grammar (kind.word ++ " " ++ (value ++ " in " ++ text)) =
        .ok (.loop kind value none e none) ∧
      ∀ key, isName key = true →
        read grammar (kind.word ++ " " ++ (value ++ ", " ++ key ++ " in " ++ text)) =
          .ok (.loop kind value (some key) e none) := by
  refine ⟨fun _ _ _ => loopHeader_eq_ok_iff, fun _ _ => read_loop grammar kind,
    fun value text e hvalue hparse hblank => ?_⟩
  have hsource := beginsSolid_of_parse hparse hblank
  have hbegins : BeginsSolid value.toList :=
    (isWord_of_isName hvalue).beginsSolid (toList_ne_nil_of_isName hvalue)
  refine ⟨read_spaced ?_ (loopOver_value hvalue hsource hparse),
    fun key hkey => read_spaced ?_ (loopOver_key hvalue hkey hsource hparse)⟩
  · rw [String.toList_append, String.toList_append]
    exact (hbegins.append _).append _
  · simp only [String.toList_append]
    exact (((hbegins.append _).append _).append _).append _

/-- The text `in` within the expression is not the one before it. -/
theorem loop_headers_in_text : ∃ e, Expr.parse "'in' in names" = .ok e ∧
    read ⟨[], []⟩ (LoopKind.items.word ++ " " ++
      ("index" ++ ", " ++ "inner" ++ " in " ++ "'in' in names")) =
        .ok (.loop .items "index" (some "inner") e none) := by
  cases hparse : Expr.parse "'in' in names" with
  | error =>
    have hsome : (Expr.parse "'in' in names").toOption.isSome = true := by decide +kernel
    rw [hparse] at hsome
    cases hsome
  | ok e =>
    obtain ⟨-, -, hloops⟩ := loop_headers ⟨[], []⟩ .items
    have hbegins : ∀ c, "'in' in names".toList.head? = some c → isBlank c = false := by
      rintro c ⟨⟩
      rfl
    exact ⟨e, rfl, (hloops "index" _ e (by decide +kernel) hparse hbegins).2 "inner"
      (by decide +kernel)⟩

end Directive
end Templating
