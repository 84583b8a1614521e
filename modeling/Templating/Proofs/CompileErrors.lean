import Templating.Template.Compile
import Templating.Proofs.Balance
import Templating.Proofs.Cutting
import Templating.Proofs.LayoutLast
import Templating.Proofs.ParserErrors
import Templating.Proofs.StructuredRun

/-!
Where the errors of templates are. The parts of a directive that are read further are ends of it, so
a place in a part is one in the directive; a fault of balance is laid to a directive that opens,
closes or continues a construct, never to a literal run.
-/
namespace Templating
open Text

namespace Directive

variable {text tail : List Char}

def Fits {α : Type} (text : List Char) (r : Except DirectiveError α) : Prop :=
  Pinpoints DirectiveError.offset text (fun _ => True) r

theorem boundary_of_tail (htail : tail <:+ text) {place : Nat} (h : Boundary tail place) :
    Boundary text (offsetOf text tail + place) := by
  have hstands := (StandsAt.whole text).of_suffix htail
  rw [Nat.zero_add] at hstands
  exact hstands.boundary_add h

theorem boundary_offsetOf (htail : tail <:+ text) : Boundary text (offsetOf text tail) :=
  boundary_of_tail htail (Boundary.start tail)

theorem suffix_of_isPrefixOf? {p rest : List Char} (h : p.isPrefixOf? text = some rest) :
    rest <:+ text :=
  ⟨p, List.append_eq_of_isPrefixOf?_eq_some h⟩

theorem afterWord?_suffix {word : String} (h : afterWord? word text = some tail) :
    tail <:+ text := by
  unfold afterWord? at h
  split at h
  · rename_i c rest hword
    split at h
    · cases h
      have hrest : c :: rest <:+ text := suffix_of_isPrefixOf? hword
      exact (List.dropWhile_suffix _).trans ((List.suffix_cons c rest).trans hrest)
    · cases h
  · cases h

theorem expression_fits (htail : tail <:+ text) : Fits text (expression text tail) := by
  unfold expression
  have hread := Expr.parse_pinpoints (String.ofList tail)
  rw [String.toList_ofList] at hread
  cases hparse : Expr.parse (String.ofList tail) with
  | ok e => trivial
  | error e =>
    rw [hparse] at hread
    exact boundary_of_tail htail hread

theorem arguments_fits (htail : tail <:+ text) (max : Nat) :
    Fits text (arguments text tail max) := by
  unfold arguments
  have hread := Expr.parseArguments_pinpoints max (String.ofList tail)
  rw [String.toList_ofList] at hread
  cases hparse : Expr.parseArguments max (String.ofList tail) with
  | ok e => trivial
  | error e =>
    rw [hparse] at hread
    exact boundary_of_tail htail hread

theorem pathAndData_fits (htail : tail <:+ text) : Fits text (pathAndData text tail) := by
  refine (arguments_fits htail 2).bind fun es _ => ?_
  cases es with
  | nil => exact boundary_offsetOf htail
  | cons path rest => trivial

theorem optionalData_fits (htail : tail <:+ text) : Fits text (optionalData text tail) := by
  unfold optionalData
  split
  · trivial
  · exact (arguments_fits htail 1).bind fun _ _ => trivial

theorem name_fits (htail : tail <:+ text) (directive : String) :
    Fits text (name text tail directive) := by
  unfold name
  dsimp only
  split
  · trivial
  · exact boundary_offsetOf htail

theorem splitIn?_suffix {bindings source : List Char}
    (h : splitIn? text = some (bindings, source)) : source <:+ text := by
  fun_induction splitIn? text generalizing bindings source with
  | case1 => cases h
  | case2 c cs source? found =>
    rename_i hfound
    cases h
    have hword : afterWord? "in" cs = some found := by
      dsimp only [source?] at hfound
      split at hfound
      · exact (Option.filter_eq_some_iff.mp hfound).1
      · cases hfound
    exact (afterWord?_suffix hword).trans (List.suffix_cons c cs)
  | case3 c cs source? hnone =>
    rename_i ih
    obtain ⟨⟨before, found⟩, hsplit, heq⟩ := Option.map_eq_some_iff.mp h
    obtain ⟨-, rfl⟩ := Prod.mk.inj heq
    exact (ih hsplit).trans (List.suffix_cons c cs)

theorem loopHeader_fits (htail : tail <:+ text) (kind : LoopKind) :
    Fits text (loopHeader text tail kind) := by
  have hinvalid : Boundary text (offsetOf text tail) := boundary_offsetOf htail
  unfold loopHeader
  dsimp only
  split
  · exact hinvalid
  · rename_i bindings source hsplit
    split
    · exact hinvalid
    · refine (expression_fits ?_).bind fun _ _ => trivial
      exact (splitIn?_suffix hsplit).trans htail

def FormFits (text : List Char) (form? : Option (Except DirectiveError Instruction)) : Prop :=
  ∀ r, form? = some r → Fits text r

theorem Fits.form {r : Except DirectiveError Instruction} (h : Fits text r) :
    FormFits text (some r) := by
  rintro r' heq
  cases heq
  exact h

theorem FormFits.none : FormFits text none := by
  rintro r heq
  cases heq

theorem FormFits.or {a b : Option (Except DirectiveError Instruction)} (h : FormFits text a)
    (h' : FormFits text b) : FormFits text (a.or b) := by
  cases a with
  | none => exact h'
  | some r => exact h

theorem builtin?_fits (text : List Char) : FormFits text (builtin? text) := by
  fun_cases builtin? text with
  | case1 rest h =>
    exact Fits.form ((expression_fits (afterWord?_suffix h)).bind fun _ _ => trivial)
  | case2 rest h =>
    exact Fits.form ((pathAndData_fits (afterWord?_suffix h)).bind fun _ _ => trivial)
  | case3 rest h =>
    exact Fits.form ((pathAndData_fits (afterWord?_suffix h)).bind fun _ _ => trivial)
  | case4 => exact Fits.form trivial
  | case5 _ rest h =>
    exact Fits.form ((name_fits (afterWord?_suffix h) _).bind fun _ _ => trivial)
  | case6 => exact Fits.form trivial
  | case7 _ _ rest h =>
    exact Fits.form ((name_fits (afterWord?_suffix h) _).bind fun _ _ => trivial)
  | case8 _ _ rest h =>
    exact Fits.form ((name_fits (afterWord?_suffix h) _).bind fun _ _ => trivial)
  | case9 _ _ rest h =>
    exact Fits.form ((name_fits (afterWord?_suffix h) _).bind fun _ _ => trivial)
  | case10 _ _ rest h =>
    have htail : trimStart rest <:+ text :=
      (List.dropWhile_suffix _).trans (suffix_of_isPrefixOf? h)
    exact Fits.form ((expression_fits htail).bind fun _ _ => trivial)
  | case11 => exact Fits.form trivial
  | case12 _ _ _ rest h =>
    obtain ⟨middle, helse, hif⟩ := Option.bind_eq_some_iff.mp h
    have htail : rest <:+ text := (afterWord?_suffix hif).trans (afterWord?_suffix helse)
    exact Fits.form ((expression_fits htail).bind fun _ _ => trivial)
  | case13 => exact Fits.form trivial
  | case14 _ _ _ _ rest h =>
    exact Fits.form ((expression_fits (afterWord?_suffix h)).bind fun _ _ => trivial)
  | case15 _ _ _ _ rest h => exact Fits.form (loopHeader_fits (afterWord?_suffix h) .entries)
  | case16 _ _ _ _ rest h => exact Fits.form (loopHeader_fits (afterWord?_suffix h) .items)
  | case17 => exact Fits.form trivial
  | case18 => exact FormFits.none

theorem afterContentForm?_suffix {name : String} (h : afterContentForm? name text = some tail) :
    tail <:+ text := by
  obtain ⟨middle, hname, hcontent⟩ := Option.bind_eq_some_iff.mp h
  exact (afterWord?_suffix hcontent).trans (suffix_of_isPrefixOf? hname)

theorem tagForm?_fits (text : List Char) (form : Form) : FormFits text (tagForm? text form) := by
  fun_cases tagForm? text form with
  | case1 rest h =>
    have htail : rest <:+ text := afterContentForm?_suffix h
    refine Fits.form ?_
    split
    · exact Boundary.start text
    · exact (pathAndData_fits htail).bind fun _ _ => trivial
  | case2 rest h =>
    exact Fits.form ((pathAndData_fits (afterWord?_suffix h)).bind fun _ _ => trivial)
  | case3 => exact Fits.form trivial
  | case4 => exact FormFits.none

theorem tagForms_fits (text : List Char) (forms : List Form) :
    FormFits text (forms.findSome? (tagForm? text)) := by
  intro r h
  obtain ⟨form, -, hform⟩ := List.exists_of_findSome?_eq_some h
  exact tagForm?_fits text form r hform

theorem shortcutForm?_fits {body : List Char} (hbody : body <:+ text) (form : Form) :
    FormFits text (shortcutForm? text body form) := by
  intro r h
  obtain ⟨after, hname, h⟩ := Option.bind_eq_some_iff.mp h
  have hafter : after <:+ text := (suffix_of_isPrefixOf? hname).trans hbody
  split at h
  · rename_i rest hcontent
    have hrest : trimStart rest <:+ text :=
      (List.dropWhile_suffix _).trans ((suffix_of_isPrefixOf? hcontent).trans hafter)
    split at h
    · cases h
    · cases h
      split
      · exact Boundary.start text
      · exact (optionalData_fits hrest).bind fun _ _ => trivial
  · split at h
    · cases h
    · cases h
      have hrest : trimStart after <:+ text := (List.dropWhile_suffix _).trans hafter
      exact (optionalData_fits hrest).bind fun _ _ => trivial

theorem shortcutForms?_fits (text : List Char) (forms : List Form) :
    FormFits text (shortcutForms? text forms) := by
  intro r h
  unfold shortcutForms? at h
  split at h
  · rename_i body hat
    obtain ⟨form, -, hform⟩ := List.exists_of_findSome?_eq_some h
    exact shortcutForm?_fits (suffix_of_isPrefixOf? hat) form r hform
  · obtain ⟨aliasName, -, rfl⟩ := Option.map_eq_some_iff.mp h
    trivial

/-- A directive is rejected at a boundary of its text. -/
theorem read_fits (grammar : Grammar) (directive : String) :
    Fits directive.toList (read grammar directive) := by
  unfold read
  dsimp only
  split
  · exact Boundary.start _
  · have hforms := (builtin?_fits directive.toList).or
      ((tagForms_fits directive.toList grammar.tags).or
        (shortcutForms?_fits directive.toList grammar.shortcuts))
    cases hform : (builtin? directive.toList).or
        ((grammar.tags.findSome? (tagForm? directive.toList)).or
          (shortcutForms? directive.toList grammar.shortcuts)) with
    | none => exact (expression_fits (List.suffix_refl _)).bind fun _ _ => trivial
    | some r => exact hforms r hform

end Directive

def Instruction.isLiteral : Instruction → Bool
  | literal _ => true
  | _ => false

def DirectiveAt (statements : List Statement) (index : Nat) : Prop :=
  ∃ s, statements[index]? = some s ∧ s.instruction.isLiteral = false

theorem isLiteral_of_refused {instruction : Instruction} {index : Nat} {stack : List Open}
    {fault : SyntaxFault} (h : instruction.balance index stack = .error fault) :
    instruction.isLiteral = false := by
  cases instruction with
  | literal text => cases h
  | _ => rfl

/-- An open construct was open before, or a directive has opened it. -/
theorem opener_of_balance {instruction : Instruction} {index : Nat} {stack after : List Open}
    {ts : List Target} (h : instruction.balance index stack = .ok (after, ts)) {o : Open}
    (ho : o ∈ after) :
    (∃ o' ∈ stack, o'.opener = o.opener) ∨ o.opener = index ∧ instruction.isLiteral = false := by
  have hpushed {new : Open} (hnew : new.opener = index) (hlit : instruction.isLiteral = false)
      (ho : o ∈ new :: stack) :
      (∃ o' ∈ stack, o'.opener = o.opener) ∨ o.opener = index ∧ instruction.isLiteral = false := by
    rcases List.mem_cons.mp ho with rfl | ho
    · exact .inr ⟨hnew, hlit⟩
    · exact .inl ⟨o, ho, rfl⟩
  cases Instruction.moves_of_balance h with
  | plain => exact .inl ⟨o, ho, rfl⟩
  | branch => exact hpushed rfl rfl ho
  | loop => exact hpushed rfl rfl ho
  | collect collector => exact hpushed (by cases collector <;> rfl) (by cases collector <;> rfl) ho
  | elseBranch test next stop i branches outer =>
    rcases List.mem_cons.mp ho with rfl | ho
    · exact .inl ⟨_, List.mem_cons_self, rfl⟩
    · exact .inl ⟨o, List.mem_cons_of_mem _ ho, rfl⟩
  | otherwise stop i branches outer =>
    rcases List.mem_cons.mp ho with rfl | ho
    · exact .inl ⟨_, List.mem_cons_self, rfl⟩
    · exact .inl ⟨o, List.mem_cons_of_mem _ ho, rfl⟩
  | close closed => exact .inl ⟨o, List.mem_cons_of_mem _ ho, rfl⟩

/-- A fault of balance is laid to a directive, if the open constructs were opened by directives. -/
theorem directiveAt_of_targetsFrom {statements : List Statement} {e : LinkError} :
    ∀ {before l : List Statement} {stack : List Open}, statements = before ++ l →
      (∀ o ∈ stack, DirectiveAt statements o.opener) →
      targetsFrom before.length stack l = .error e → DirectiveAt statements e.index
  | before, [], stack, _, hopen, h => by
    cases stack with
    | nil => cases h
    | cons o outer =>
      cases h
      exact hopen o List.mem_cons_self
  | before, s :: l, stack, hsplit, hopen, h => by
    have hs : statements[before.length]? = some s := by simp [hsplit]
    rw [targetsFrom] at h
    cases hbalance : s.instruction.balance before.length stack with
    | error fault =>
      rw [hbalance] at h
      cases h
      exact ⟨s, hs, isLiteral_of_refused hbalance⟩
    | ok moved =>
      obtain ⟨after, ts⟩ := moved
      simp only [hbalance] at h
      have hrest : targetsFrom (before ++ [s]).length after l = .error e := by
        rw [List.length_append]
        cases hmore : targetsFrom (before.length + 1) after l with
        | error e' =>
          rw [hmore] at h
          cases h
          rfl
        | ok us =>
          rw [hmore] at h
          cases h
      refine directiveAt_of_targetsFrom (by simp [hsplit]) (fun o ho => ?_) hrest
      rcases opener_of_balance hbalance ho with ⟨o', ho', hsame⟩ | ⟨hindex, hlit⟩
      · exact hsame ▸ hopen o' ho'
      · exact hindex ▸ ⟨s, hs, hlit⟩

theorem directiveAt_of_link {statements : List Statement} {e : LinkError}
    (h : link statements = .error e) : DirectiveAt statements e.index := by
  unfold link at h
  cases htargets : targetsFrom 0 [] statements with
  | error e' =>
    rw [htargets] at h
    cases h
    exact @directiveAt_of_targetsFrom statements e [] statements [] rfl (fun _ ho => by cases ho)
      htargets
  | ok ts =>
    rw [htargets] at h
    cases h

/-- The statement of a directive says where the directive is. -/
theorem Segment.directive_of_statement {grammar : Grammar} {path : String} {segment : Segment}
    {s : Statement} (h : segment.statement grammar path = .ok s)
    (hs : s.instruction.isLiteral = false) :
    segment = .directive s.directive s.line s.offset := by
  cases segment with
  | text run line offset =>
    cases h
    cases hs
  | directive text line offset =>
    simp only [statement] at h
    split at h
    · cases h
      rfl
    · cases h

/-- A list that cannot be mapped has an element that cannot. -/
theorem exists_of_mapM_error {α β ε : Type} {f : α → Except ε β} {e : ε} :
    ∀ {xs : List α}, xs.mapM f = .error e → ∃ x ∈ xs, f x = .error e
  | [], h => by cases h
  | x :: xs, h => by
    rw [List.mapM_cons] at h
    cases hx : f x with
    | error e' =>
      rw [hx] at h
      cases h
      exact ⟨x, List.mem_cons_self, hx⟩
    | ok y =>
      cases hxs : xs.mapM f with
      | error e' =>
        simp only [hx, hxs] at h
        cases h
        obtain ⟨z, hz, hfail⟩ := exists_of_mapM_error hxs
        exact ⟨z, List.mem_cons_of_mem x hz, hfail⟩
      | ok ys =>
        simp only [hx, hxs] at h
        cases h

/-- An error lies in a directive segment: it has its text and line, and its offset is that of a
boundary of the text. -/
structure SyntaxError.LiesIn (error : SyntaxError) (path : String) (segments : List Segment) :
    Prop where
  path : error.path = path
  place : ∃ offset inner, .directive error.directive error.line offset ∈ segments ∧
    Boundary error.directive.toList inner ∧ error.offset = offset + inner

theorem Segment.liesIn_of_statement {grammar : Grammar} {path : String} {segment : Segment}
    {segments : List Segment} {error : SyntaxError} (hmem : segment ∈ segments)
    (h : segment.statement grammar path = .error error) : error.LiesIn path segments := by
  cases segment with
  | text run line offset => cases h
  | directive text line offset =>
    have hfits := Directive.read_fits grammar text
    simp only [statement] at h
    split at h
    · cases h
    · rename_i e hread
      rw [hread] at hfits
      cases h
      exact ⟨rfl, offset, e.offset, hmem, hfits, rfl⟩

theorem liesIn_of_compile {grammar : Grammar} {path source : String} {error : SyntaxError}
    (h : Template.compile grammar path source = .error error) :
    error.LiesIn path (segmentsOf source) := by
  unfold Template.compile at h
  cases hread : (segmentsOf source).mapM (Segment.statement grammar path) with
  | error e =>
    rw [hread] at h
    cases h
    obtain ⟨segment, hmem, hfail⟩ := exists_of_mapM_error hread
    exact Segment.liesIn_of_statement hmem hfail
  | ok statements =>
    simp only [hread] at h
    cases hlink : link statements with
    | ok linked => simp [hlink, bind, Except.bind, pure, Except.pure] at h
    | error e =>
      obtain ⟨s, hs, hlit⟩ := directiveAt_of_link hlink
      have hall := forall₂_of_mapM hread
      obtain ⟨hi, hsi⟩ := List.getElem?_eq_some_iff.mp hs
      have hi' : e.index < (segmentsOf source).length := by rwa [hall.length_eq]
      have hstatement := hall.get hi' hi
      rw [List.get_eq_getElem, List.get_eq_getElem, hsi] at hstatement
      have hsegment := Segment.directive_of_statement hstatement hlit
      have herror : error = e.located path statements := by
        simpa [hlink, bind, Except.bind, throw, throwThe, MonadExceptOf.throw] using h.symm
      subst herror
      have hplace : e.located path statements =
          DirectiveError.located ⟨e.fault, 0⟩ path s.directive s.line s.offset := by
        rw [LinkError.located, hs]
        rfl
      rw [hplace]
      refine ⟨rfl, s.offset, 0, ?_, Boundary.start _, rfl⟩
      rw [DirectiveError.located, ← hsegment]
      exact List.getElem_mem hi'

/-- A template is rejected for one of the directives of its source: the error has the trimmed text
of the directive and the line of its opening braces, and its offset is that of a place between two
characters of this text, or at one of its ends. -/
theorem compile_error_place {grammar : Grammar} {path source : String} {error : SyntaxError}
    (h : Template.compile grammar path source = .error error) :
    error.path = path ∧ ∃ these raw those, Cut source.toList (these ++ .directive raw :: those) ∧
      error.directive = String.ofList (trim raw) ∧
      error.line = 1 + lineFeeds (these.flatMap Piece.source) ∧
      ∃ inside rest blanks, trim raw = inside ++ rest ∧
        source.toList = these.flatMap Piece.source ++ openingBraces ++ raw.takeWhile isBlank ++
          inside ++ rest ++ blanks ++ closingBraces ++ those.flatMap Piece.source ∧
        error.offset = utf8Size (these.flatMap Piece.source ++ openingBraces ++
          raw.takeWhile isBlank ++ inside) := by
  obtain ⟨hpath, offset, inner, hmem, hinner, hoffset⟩ := liesIn_of_compile h
  have hcut := cut_piecesOf source.toList
  rw [segmentsOf_eq] at hmem
  obtain ⟨these, piece, those, hpieces, hsegment⟩ := mem_segmentsAfter (mem_of_mem_layoutLast hmem)
  rw [hpieces] at hcut
  cases piece with
  | literal cs => cases hsegment
  | directive raw =>
    obtain ⟨htext, hline, rfl⟩ := Segment.directive.inj hsegment
    obtain ⟨inside, ⟨rest, hrest⟩, rfl⟩ := hinner
    rw [htext, String.toList_ofList] at hrest
    obtain ⟨blanks, hblanks⟩ := exists_trim raw
    refine ⟨hpath, these, raw, those, hcut, htext, hline, inside, rest, blanks, hrest.symm, ?_, ?_⟩
    · rw [← hcut.flatMap_source, List.flatMap_append, List.flatMap_cons, Piece.source_directive]
      rw [← hrest] at hblanks
      rw [show openingBraces ++ raw ++ closingBraces = openingBraces ++ (raw.takeWhile isBlank ++
        (inside ++ rest ++ blanks)) ++ closingBraces by rw [← hblanks]]
      simp only [List.append_assoc]
    · rw [hoffset, ← utf8Size_append]
      rfl

/-- An escape that is none, in a string within a substitution within a template literal. -/
theorem escape_in_substitution_place : ∃ error,
    Template.compile {} "/t" "\xe9\n\x7b\x7b if \x60a$\x7b '\\xZ' \x7d\x60 \x7d\x7d" =
      .error error ∧ error.line = 2 ∧ error.offset = 15 ∧
      ∃ these raw inside, error.directive = String.ofList (trim raw) ∧
        error.line = 1 + lineFeeds these ∧ inside <+: trim raw ∧
        error.offset = utf8Size (these ++ openingBraces ++ raw.takeWhile isBlank ++ inside) := by
  have hplace : ((Template.compile {} "/t"
      "\xe9\n\x7b\x7b if \x60a$\x7b '\\xZ' \x7d\x60 \x7d\x7d").mapError
        fun e => (e.line, e.offset)).map (fun _ => ()) = .error (2, 15) := by decide +kernel
  generalize hcompile : Template.compile {} "/t" _ = result at hplace ⊢
  cases result with
  | ok template => cases hplace
  | error error =>
    obtain ⟨hline, hoffset⟩ := Prod.mk.inj (Except.error.inj hplace)
    obtain ⟨-, these, raw, -, -, hdirective, hfeeds, inside, rest, -, htrim, -, hsize⟩ :=
      compile_error_place hcompile
    exact ⟨error, rfl, hline, hoffset, _, raw, inside, hdirective, hfeeds,
      ⟨rest, htrim.symm⟩, hsize⟩

end Templating
