import Templating.Proofs.ChainReading
import Templating.Proofs.LayoutLast
import Templating.Proofs.LoopHeaders

/-!
Names in directives and names in expressions. What the predicate on characters accepts is what the
lexer reads as one word and the parser as one name, so a name that a directive binds or asks for can
be used in expressions as it is written.
-/
namespace Templating
open Text

/-- A word that is no keyword is a name. -/
theorem isName_of_readIn {source rest : List Char} {t : Token} {c : Char} {n : Nat}
    (h : t.ReadIn source c rest n) (hkind : t.kind = .word) : isName t.text = true := by
  have hread := h.reads
  rw [hkind] at hread
  obtain ⟨hstart, hparts, hnext⟩ := lexeme_word hread rfl
  have hall : (rest.take n).all isWordPart = true :=
    List.all_eq_true.mpr (List.forall_mem_cons.mp hparts).2
  obtain ⟨_, _, htext, hagain⟩ := (Lexeme.read_word hstart hall hnext).reads
  cases htext
  have hsame := hagain t.start
  rw [List.take_append_drop, hread] at hsame
  have hword : TokenKind.ofWord (String.ofList (c :: rest.take n)) = .word := by
    injection hsame with hsame
    exact (Prod.mk.inj hsame).1.symm
  have hkeyword : Keyword.ofWord? t.text = none := by
    rw [← String.ofList_toList (s := t.text), h.text]
    unfold TokenKind.ofWord at hword
    split at hword
    · cases hword
    · assumption
  rw [isName, h.text]
  simp [hstart, hkeyword, hall]

/-- A name alone is one word. -/
theorem tokenize_name {t : String} (h : isName t = true) :
    tokenize t = .ok [⟨.word, t, 0⟩] := by
  have hvalid := (Phrase.name h).valid (Lexeme.word t) List.mem_cons_self
  have htokens := hvalid.isToken.tokensFrom_append 0 .nil
  rw [List.append_nil, Parser.kind_word h, Parser.text_word] at htokens
  have hend : tokensFrom (0 + utf8Size (Lexeme.word t).text) [] = .ok [] := by
    rw [tokensFrom_eq]
    rfl
  rw [hend] at htokens
  exact htokens

namespace Parser

variable {size : Nat} {id : String}

/-- Nothing that is read after an expression makes a name of it. -/
theorem eq_name_of_continued {bound level : Nat} {left : Expr} {tokens rest : List Token}
    (h : continued size bound level left tokens = .ok (.name id, rest)) : left = .name id := by
  induction bound generalizing left tokens with
  | zero => cases h
  | succ bound ih =>
    cases tokens with
    | nil =>
      cases h
      rfl
    | cons token tokens =>
      unfold continued at h
      dsimp only at h
      split at h
      · obtain ⟨⟨property, more⟩, -, h⟩ := exists_of_bind h
        cases ih h
      · obtain ⟨⟨key, more⟩, -, h⟩ := exists_of_bind h
        cases ih h
      · obtain ⟨⟨args, more⟩, -, h⟩ := exists_of_bind h
        cases ih h
      · split at h
        all_goals
          obtain ⟨⟨_, more⟩, -, h⟩ := exists_of_bind h
          cases ih h
      · split at h
        · obtain ⟨⟨consequent, _⟩, -, h⟩ := exists_of_bind h
          obtain ⟨_, -, h⟩ := exists_of_bind h
          obtain ⟨⟨alternate, _⟩, -, h⟩ := exists_of_bind h
          cases ih h
        · cases h
          rfl
      · split at h
        · cases h
          rfl
        · split at h
          · cases h
            rfl
          · obtain ⟨⟨right, _⟩, -, h⟩ := exists_of_bind h
            cases ih h

def HasWord (id : String) (tokens : List Token) : Prop :=
  ∃ t ∈ tokens, t.kind = .word ∧ t.text = id

theorem HasWord.cons {tokens : List Token} (h : HasWord id tokens) (token : Token) :
    HasWord id (token :: tokens) := by
  obtain ⟨t, ht, hword⟩ := h
  exact ⟨t, List.mem_cons_of_mem _ ht, hword⟩

/-- A name is read from a word, or from what is in parentheses. -/
theorem hasWord_of_primary {bound : Nat} {token : Token} {tokens rest : List Token}
    (inner : ∀ b < bound, ∀ rest, expression size b 0 tokens = .ok (.name id, rest) →
      HasWord id tokens)
    (h : primary size bound token tokens = .ok (.name id, rest)) :
    HasWord id (token :: tokens) := by
  cases bound with
  | zero => cases h
  | succ bound =>
    unfold primary at h
    dsimp only at h
    split at h
    · obtain ⟨_, -, h⟩ := exists_of_bind h
      cases h
    · obtain ⟨_, -, h⟩ := exists_of_bind h
      cases h
    · obtain ⟨_, -, h⟩ := exists_of_bind h
      obtain ⟨_, -, h⟩ := exists_of_bind h
      cases h
    · cases h
    · cases h
    · cases h
    · cases h
    · rename_i hkind
      split at h
      · obtain ⟨_, -, h⟩ := exists_of_bind h
        cases h
      · cases h
        exact ⟨token, List.mem_cons_self, hkind, rfl⟩
    · split at h
      · obtain ⟨_, -, h⟩ := exists_of_bind h
        obtain ⟨_, -, h⟩ := exists_of_bind h
        obtain ⟨_, -, h⟩ := exists_of_bind h
        cases h
      · obtain ⟨⟨e, _⟩, hinner, h⟩ := exists_of_bind h
        obtain ⟨_, -, h⟩ := exists_of_bind h
        cases h
        exact (inner _ (Nat.lt_succ_self _) _ hinner).cons token
    · obtain ⟨_, -, h⟩ := exists_of_bind h
      cases h
    · obtain ⟨_, -, h⟩ := exists_of_bind h
      cases h
    · obtain ⟨_, -, h⟩ := exists_of_bind h
      cases h
    · cases h

theorem hasWord_of_expression {bound level : Nat} {tokens rest : List Token}
    (h : expression size bound level tokens = .ok (.name id, rest)) : HasWord id tokens := by
  induction bound using Nat.strong_induction_on generalizing level tokens rest with
  | _ bound ih =>
    match bound, tokens with
    | 0, _ => cases h
    | 1, _ => cases h
    | bound + 2, [] => cases h
    | bound + 2, token :: tokens =>
      rw [expression] at h
      obtain ⟨⟨left, more⟩, hoperand, hcontinued⟩ := exists_of_bind h
      cases eq_name_of_continued hcontinued
      rw [operand] at hoperand
      split at hoperand
      · obtain ⟨_, -, h⟩ := exists_of_bind hoperand
        cases h
      · apply hasWord_of_primary _ hoperand
        intro b hb rest hinner
        exact ih b (by omega) hinner

end Parser

namespace Expr

variable {t : String}

theorem parse_of_word (h : tokenize t = .ok [⟨.word, t, 0⟩]) : Expr.parse t = .ok (.name t) :=
  Expr.parse_eq_ok_iff.mpr ⟨_, 0, 3, h, rfl⟩

/-- Whatever text is read as a name, it is a name. -/
theorem isName_of_parse {text : String} (h : Expr.parse text = .ok (.name t)) :
    isName t = true := by
  obtain ⟨tokens, size, bound, htokens, hread⟩ := Expr.parse_eq_ok_iff.mp h
  obtain ⟨token, hmem, hkind, rfl⟩ := Parser.hasWord_of_expression hread
  obtain ⟨c, rest, n, hreadIn⟩ := exists_readIn (StandsAt.whole _) htokens token hmem
  exact isName_of_readIn hreadIn hkind

theorem parse_name_iff : Expr.parse t = .ok (.name t) ↔ isName t = true :=
  ⟨isName_of_parse, fun h => parse_of_word (tokenize_name h)⟩

end Expr

/-- The names in an instruction: of a block, of what is put or asked for, of what a loop binds. -/
def Instruction.names : Instruction → List String
  | put name | block name | branch (.bound name) _ | branch (.unbound name) _ => [name]
  | loop _ value key _ _ => value :: key.toList
  | _ => []

theorem Instruction.names_of_isOfGrammar (i : Instruction) (h : i.isOfGrammar = true) :
    i.names = [] := by
  cases i <;> first | rfl | cases h

namespace Directive

abbrev YieldsNames (result : Except DirectiveError Instruction) : Prop :=
  Yields (fun i => ∀ n ∈ i.names, isName n = true) result

section Forms

variable {text tail : List Char} {directive n : String}

theorem name_eq_ok_iff : name text tail directive = .ok n ↔
    n = String.ofList (trimEnd tail) ∧ isName n = true := by
  unfold name
  dsimp only
  split
  · rename_i hname
    constructor
    · intro h
      cases h
      exact ⟨rfl, hname⟩
    · intro h
      rw [h.1]
  · rename_i hname
    constructor
    · intro h
      cases h
    · intro h
      rw [h.1] at h
      exact absurd h.2 hname

theorem yieldsNames_name {make : String → Instruction} (hmake : ∀ n, (make n).names = [n]) :
    YieldsNames (do return make (← name text tail directive)) := by
  intro i hi
  obtain ⟨n, hname, hread⟩ := Parser.exists_of_bind hi
  cases hread
  rw [hmake]
  exact List.forall_mem_singleton.mpr (name_eq_ok_iff.mp hname).2

theorem yieldsNames_loopHeader (kind : LoopKind) : YieldsNames (loopHeader text tail kind) := by
  intro i hi
  obtain ⟨value, key, e, hloop, rfl⟩ := loopHeader_eq_ok_iff.mp hi
  obtain ⟨before, source, -, hbindings, -⟩ := hloop.reads
  cases hbindings with
  | one h => exact List.forall_mem_singleton.mpr h.isName
  | two h h' => exact List.forall_mem_cons.mpr ⟨h.isName, List.forall_mem_singleton.mpr h'.isName⟩

theorem yieldsNames_builtin? {result : Except DirectiveError Instruction}
    (hresult : builtin? text = some result) : YieldsNames result := by
  unfold builtin? at hresult
  dsimp only at hresult
  repeat' split at hresult
  all_goals cases hresult
  all_goals first
    | exact .ok (List.forall_mem_nil _)
    | exact .bind fun _ => .ok (List.forall_mem_nil _)
    | exact yieldsNames_name fun _ => rfl
    | exact yieldsNames_loopHeader _

theorem yieldsNames_read (grammar : Grammar) (directive : String) :
    YieldsNames (read grammar directive) := by
  apply yields_read
  · intro result hresult
    exact yieldsNames_builtin? hresult
  · intro i hi
    rw [i.names_of_isOfGrammar hi]
    exact nofun
  · intro e
    exact nofun

end Forms

/-- The directives that take one name, by their words. -/
def namingForms : List (String × (String → Instruction)) :=
  [("block", .block), ("put", .put), ("exists", fun n => .branch (.bound n) none),
    ("existsNot", fun n => .branch (.unbound n) none)]

theorem names_of_mem_namingForms {form : String × (String → Instruction)}
    (h : form ∈ namingForms) (n : String) : (form.2 n).names = [n] := by
  simp only [namingForms, List.mem_cons, List.not_mem_nil, or_false] at h
  rcases h with rfl | rfl | rfl | rfl <;> rfl

theorem builtin?_naming {form : String × (String → Instruction)} (h : form ∈ namingForms)
    {c : Char} (hc : isBlank c = true) (rest : List Char) :
    builtin? (form.1.toList ++ c :: rest) =
      some (do return form.2 (← name (form.1.toList ++ c :: rest) (trimStart rest) form.1)) := by
  simp only [namingForms, List.mem_cons, List.not_mem_nil, or_false] at h
  have hword : IsWord form.1.toList := by rcases h with rfl | rfl | rfl | rfl <;> decide
  have hplain : BeginsPlain (form.1.toList ++ c :: rest) := by
    rcases h with rfl | rfl | rfl | rfl <;> exact ⟨by simp, by simp⟩
  have hafter (word : String) (h : IsWord word.toList) := afterWord?_append hword h hc rest
  have hne (word : String) (h : IsWord word.toList) :
      form.1.toList ++ c :: rest ≠ word.toList := h.ne_append_blank hc rest
  simp (disch := decide) only [builtin?, hafter, hne, hplain.isPrefixOf?, if_neg hplain.not_comment,
    if_false]
  rcases h with rfl | rfl | rfl | rfl <;> simp

theorem beginsSolid_of_isName {t : String} (ht : isName t = true) : BeginsSolid t.toList :=
  (isWord_of_isName ht).beginsSolid (toList_ne_nil_of_isName ht)

theorem name_of_isName {text : List Char} {directive t : String} (ht : isName t = true) :
    name text (trimStart t.toList) directive = .ok t := by
  have hnone : Blanks [] := nofun
  have hstart := trimStart_append hnone (beginsSolid_of_isName ht)
  have hlast := (isWord_of_isName ht).reverse.beginsSolid
    (mt List.reverse_eq_nil_iff.mp (toList_ne_nil_of_isName ht))
  have hend := trimEnd_append hnone hlast
  rw [List.nil_append] at hstart
  rw [List.append_nil] at hend
  rw [name_eq_ok_iff, hstart, hend, String.ofList_toList]
  exact ⟨rfl, ht⟩

theorem read_naming {form : String × (String → Instruction)} (h : form ∈ namingForms)
    (grammar : Grammar) {t : String} (ht : isName t = true) :
    read grammar (form.1 ++ " " ++ t) = .ok (form.2 t) := by
  have htext : (form.1 ++ " " ++ t).toList = form.1.toList ++ ' ' :: t.toList := by simp
  have hnonempty : (form.1.toList ++ ' ' :: t.toList).isEmpty = false := by simp
  rw [read, htext, builtin?_naming h rfl, name_of_isName ht, hnonempty]
  rfl

theorem read_loop_value (grammar : Grammar) (kind : LoopKind) {source v : String} {e : Expr}
    (hparse : Expr.parse source = .ok e) (hsource : BeginsSolid source.toList)
    (hv : isName v = true) :
    read grammar (kind.word ++ " " ++ (v ++ " in " ++ source)) =
      .ok (.loop kind v none e none) := by
  apply read_spaced _ (loopOver_value hv hsource hparse)
  simp only [String.toList_append, List.append_assoc]
  exact (beginsSolid_of_isName hv).append _

theorem read_loop_key (grammar : Grammar) (kind : LoopKind) {source v k : String} {e : Expr}
    (hparse : Expr.parse source = .ok e) (hsource : BeginsSolid source.toList)
    (hv : isName v = true) (hk : isName k = true) :
    read grammar (kind.word ++ " " ++ (v ++ ", " ++ k ++ " in " ++ source)) =
      .ok (.loop kind v (some k) e none) := by
  apply read_spaced _ (loopOver_key hv hk hsource hparse)
  simp only [String.toList_append, List.append_assoc]
  exact (beginsSolid_of_isName hv).append _

end Directive

open Directive in
/-- A text is a name exactly if it is read as one word, and exactly if it is read as an expression
that is this name. The names that a directive comes to are such texts, and every such text can stand
where a directive takes a name. -/
theorem names_read_alike :
    (∀ t, (isName t = true ↔ tokenize t = .ok [⟨.word, t, 0⟩]) ∧
      (isName t = true ↔ Expr.parse t = .ok (.name t))) ∧
    (∀ grammar directive i, read grammar directive = .ok i →
      ∀ n ∈ i.names, Expr.parse n = .ok (.name n)) ∧
    (∀ grammar, ∀ form ∈ namingForms, ∀ t,
      read grammar (form.1 ++ " " ++ t) = .ok (form.2 t) ↔ Expr.parse t = .ok (.name t)) ∧
    ∀ grammar kind source e, Expr.parse source = .ok e →
      (∀ c, source.toList.head? = some c → isBlank c = false) → ∀ v,
        (read grammar (kind.word ++ " " ++ (v ++ " in " ++ source)) =
          .ok (.loop kind v none e none) ↔ Expr.parse v = .ok (.name v)) ∧
        ∀ k, read grammar (kind.word ++ " " ++ (v ++ ", " ++ k ++ " in " ++ source)) =
          .ok (.loop kind v (some k) e none) ↔
            Expr.parse v = .ok (.name v) ∧ Expr.parse k = .ok (.name k) := by
  simp only [Expr.parse_name_iff]
  refine ⟨fun t => ⟨⟨tokenize_name, fun h => ?_⟩, trivial⟩, yieldsNames_read,
    fun grammar form hform t => ⟨fun h => ?_, read_naming hform grammar⟩,
    fun grammar kind source e hparse hblank v => ?_⟩
  · exact Expr.isName_of_parse (Expr.parse_of_word h)
  · apply yieldsNames_read _ _ _ h
    rw [names_of_mem_namingForms hform]
    exact List.mem_singleton_self t
  · have hsource := beginsSolid_of_parse hparse hblank
    constructor
    · constructor
      · intro h
        exact yieldsNames_read _ _ _ h v List.mem_cons_self
      · exact read_loop_value grammar kind hparse hsource
    · intro k
      constructor
      · intro h
        have hnames := yieldsNames_read _ _ _ h
        exact ⟨hnames v List.mem_cons_self, hnames k (by simp [Instruction.names])⟩
      · intro h
        exact read_loop_key grammar kind hparse hsource h.1 h.2

open Directive in
theorem names_of_each_read_alike :
    Expr.parse "rows" = .ok (.name "rows") ∧
      (∀ c, "rows".toList.head? = some c → isBlank c = false) ∧
      read {} (LoopKind.items.word ++ " " ++ ("row" ++ ", " ++ "nr" ++ " in " ++ "rows")) =
        .ok (.loop .items "row" (some "nr") (.name "rows") none) := by
  obtain ⟨hnames, -, -, hloops⟩ := names_read_alike
  have hparse (t : String) (h : isName t = true) : Expr.parse t = .ok (.name t) :=
    (hnames t).2.mp h
  have hrows := hparse "rows" (by decide +kernel)
  have hsolid : ∀ c, "rows".toList.head? = some c → isBlank c = false := by
    rintro c ⟨⟩
    decide +kernel
  have hloop := hloops {} .items "rows" _ hrows hsolid "row"
  have hboth := And.intro (hparse "row" (by decide +kernel)) (hparse "nr" (by decide +kernel))
  exact ⟨hrows, hsolid, (hloop.2 "nr").mpr hboth⟩

end Templating
